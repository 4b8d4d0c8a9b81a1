import CantonSdk.Base.Traversal
import CantonSdk.DamlLf.Mapper.MappedExpression
import CantonSdk.DamlLf.Mapper.RawPackage
import Mathlib.Data.Finset.Range

/-!
# The mapper of decoded packages

`Lf2ModelMapper`. References to types and expressions are followed by recursive calls of the mapper, so it runs with fuel
for calls nested to a given depth. Kinds are mapped with the indices visited so far, and need none.
-/

set_option linter.all false

namespace CantonSdk.DamlLf

open CantonSdk.Base CantonSdk.DamlLf.Interpreter

/-- What a part of a package is mapped to, or the message of a `DamlLfDecodeException`. -/
abbrev Mapping := Except (Stop String)

def decodeException {α : Type} (message : String) : Mapping α := .error (.failed message)

/-- `table[index]`. -/
def entryAt {α : Type} (table : List α) (index : Int) : Option α := if 0 ≤ index then table[index.toNat]? else none

section Names

variable (tables : Raw.Tables)

def resolveInternedString (index : Option Int) : Mapping String :=
  match index.bind (entryAt tables.internedStrings) with
  | none => decodeException "daml lf package references a missing interned string"
  | some text => .ok text

def resolveInternedDottedName (index : Option Int) : Mapping String :=
  match index.bind (entryAt tables.internedDottedNames) with
  | none => decodeException "daml lf package references a missing interned dotted name"
  | some segmentsInternedStr => do
      let segments ← segmentsInternedStr.mapM fun segmentIndex => resolveInternedString tables (some segmentIndex)
      return ".".intercalate segments

def resolveImportedPackageId (index : Int) : Mapping String :=
  match tables.importedPackages.bind fun importedPackages => entryAt importedPackages index with
  | none => decodeException "daml lf package references a missing imported package id"
  | some packageId => .ok packageId

variable (currentPackageId : String)

def resolvePackageId : Option Raw.SelfOrImportedPackageId → Mapping String
  | some (.importedPackageIdInternedStr index) => resolveInternedString tables (some index)
  | some (.packageImportId index) => resolveImportedPackageId tables index
  | _ => .ok currentPackageId

def mapTypeConReference (rawTypeConId : Option Raw.TypeConId) : Mapping TypeConReference :=
  match rawTypeConId with
  | none => decodeException "daml lf type constructor is missing its module (con)"
  | some typeConId =>
      match typeConId.module with
      | none => decodeException "daml lf type constructor is missing its module (con)"
      | some module => do
          let packageId ← resolvePackageId tables currentPackageId module.packageId
          let moduleName ← resolveInternedDottedName tables (some module.moduleNameInternedDname)
          let name ← resolveInternedDottedName tables (some typeConId.nameInternedDname)
          return ⟨packageId, moduleName, name⟩

def mapTemplateReference (rawTypeConId : Option Raw.TypeConId) : Mapping DamlLfTemplateId := do
  let reference ← mapTypeConReference tables currentPackageId rawTypeConId
  return ⟨reference.packageId, reference.moduleName, reference.name⟩

end Names

/-! ## Kinds and types -/

def mapBuiltinType : Raw.BuiltinType → DamlLfBuiltinType
  | .unit => .unit
  | .bool => .bool
  | .int64 => .int64
  | .date => .date
  | .timestamp => .timestamp
  | .numeric => .numeric
  | .party => .party
  | .text => .text
  | .contractId => .contractId
  | .optional => .optional
  | .list => .list
  | .textMap => .textMap
  | .genMap => .genMap
  | .other _ => .unknown

section Types

variable (tables : Raw.Tables) (currentPackageId : String)

/-- An index that has been visited, or is not in the table, is left unknown. -/
def mapTypeParameterKind (visitedInternedKindIndices : Finset Nat) : Option Raw.Kind → DamlLfTypeParameterKind
  | some .star => .star
  | some .nat => .nat
  | some (.arrow params result) =>
      .arrow (params.attach.map fun parameter => mapTypeParameterKind visitedInternedKindIndices (some parameter.1))
        (mapTypeParameterKind visitedInternedKindIndices result)
  | some (.internedKind index) =>
      if h : 0 ≤ index ∧ index.toNat < tables.internedKinds.length ∧ index.toNat ∉ visitedInternedKindIndices then
        mapTypeParameterKind (insert index.toNat visitedInternedKindIndices) (some (tables.internedKinds.get ⟨index.toNat, h.2.1⟩))
      else .unknown (some index)
  | some .unset => .unknown none
  | none => .unknown none
termination_by rawKind => ((Finset.range tables.internedKinds.length \ visitedInternedKindIndices).card, sizeOf rawKind)
decreasing_by
  · have hlt := List.sizeOf_lt_of_mem parameter.2
    apply Prod.Lex.right
    simp only [Option.some.sizeOf_spec, Raw.Kind.arrow.sizeOf_spec]
    omega
  · apply Prod.Lex.right
    simp only [Option.some.sizeOf_spec, Raw.Kind.arrow.sizeOf_spec]
    omega
  · apply Prod.Lex.left
    apply Finset.card_lt_card
    refine ⟨Finset.sdiff_subset_sdiff (Finset.Subset.refl _) (Finset.subset_insert _ _), fun hsubset => ?_⟩
    have hmem := hsubset (Finset.mem_sdiff.mpr ⟨Finset.mem_range.mpr h.2.1, h.2.2⟩)
    exact (Finset.mem_sdiff.mp hmem).2 (Finset.mem_insert_self _ _)

def mapTypeParameter (rawParameter : Raw.TypeVarWithKind) : DamlLfTypeParameter where
  name := entryAt tables.internedStrings rawParameter.varInternedStr
  internedStringIndex := rawParameter.varInternedStr
  kind := mapTypeParameterKind tables ∅ rawParameter.kind

def mapTypeVariableReference (internedStringIndex : Int) : DamlLfTypeVariableReference where
  name := entryAt tables.internedStrings internedStringIndex
  internedStringIndex := internedStringIndex

/-- The scale that a type level number states, behind references; `0` to `37` are accepted. -/
def readNumericScale : Nat → Option Raw.LfType → Mapping (Option Nat)
  | 0, _ => .error .gaveUp
  | fuel + 1, some (.internedType index) =>
      if 0 ≤ index then readNumericScale fuel (entryAt tables.internedTypes index) else .ok none
  | _ + 1, some (.nat nat) => .ok (if 0 ≤ nat ∧ nat ≤ 37 then some nat.toNat else none)
  | _ + 1, _ => .ok none

def MappedType.builtinType : MappedType → DamlLfBuiltinType
  | .mk builtinType _ _ _ _ _ => builtinType

def MappedType.setNumericScale (scale : Nat) : MappedType → MappedType
  | .mk builtinType _ typeConReference typeVariable diagnosticForall typeArguments =>
      .mk builtinType (some scale) typeConReference typeVariable diagnosticForall typeArguments

def MappedType.addArgument : MappedType → MappedType → MappedType
  | .mk builtinType numericScale typeConReference typeVariable diagnosticForall typeArguments, argument =>
      .mk builtinType numericScale typeConReference typeVariable diagnosticForall (typeArguments ++ [argument])

def MappedType.unknown : MappedType := .mk .unknown none none none none []

section MapType

variable (readScale : Option Raw.LfType → Mapping (Option Nat)) (mapType : Option Raw.LfType → Mapping MappedType)

/-- The scale is read only of `Numeric`. -/
def numericScaleFor (builtinType : DamlLfBuiltinType) (rawScale : Option Raw.LfType) : Mapping (Option Nat) :=
  if builtinType = .numeric then readScale rawScale else .ok none

def applyType (rhs : Option Raw.LfType) (lhs : MappedType) : Option Nat → Mapping MappedType
  | some scale => .ok (lhs.setNumericScale scale)
  | none => do
      let argument ← mapType rhs
      .ok (lhs.addArgument argument)

/-- The body of `mapType`, for given recursive calls. -/
def mapTypeWith : Option Raw.LfType → Mapping MappedType
  | some (.internedType index) => if 0 ≤ index then mapType (entryAt tables.internedTypes index) else .ok .unknown
  | some (.tapp rawLhs rhs) => do
      let lhs ← mapType rawLhs
      let numericScale ← numericScaleFor readScale lhs.builtinType rhs
      applyType mapType rhs lhs numericScale
  | some (.forall vars rawBody) => do
      let body ← mapType rawBody
      .ok (.mk .unknown none none none (some (vars.map (mapTypeParameter tables), body)) [])
  | some (.var varInternedStr args) => do
      let typeArguments ← args.mapM fun item => mapType (some item)
      .ok (.mk .unknown none none (some (mapTypeVariableReference tables varInternedStr)) none typeArguments)
  | some (.con tycon args) => do
      let typeConReference ← mapTypeConReference tables currentPackageId tycon
      let typeArguments ← args.mapM fun item => mapType (some item)
      .ok (.mk .unknown none (some typeConReference) none none typeArguments)
  | some (.builtin builtin args) => do
      let numericScale ← numericScaleFor readScale (mapBuiltinType builtin) args.head?
      let typeArguments ← (args.drop (if numericScale.isNone then 0 else 1)).mapM fun item => mapType (some item)
      .ok (.mk (mapBuiltinType builtin) numericScale none none none typeArguments)
  | _ => .ok .unknown

end MapType

def mapType : Nat → Option Raw.LfType → Mapping MappedType
  | 0, _ => .error .gaveUp
  | fuel + 1, rawType => mapTypeWith tables currentPackageId (readNumericScale tables fuel) (mapType fuel) rawType

end Types

/-! ## Expressions -/

def DamlLfExpression.withSourceLocation : DamlLfExpression → Option ExpressionSourceLocation → DamlLfExpression
  | expression, none => expression
  | .mk node _, some sourceLocation => .mk node (some sourceLocation)

def builtinFunctionText : Option String → String
  | none => "unsupported"
  | some name =>
      if name = "EQUAL" then "equal"
      else if name = "GREATER" then "greater"
      else if name = "APPEND_TEXT" then "appendText"
      else name

section Expressions

variable (tables : Raw.Tables) (currentPackageId : String)

def mapExpressionSourceLocation : Option Raw.Location → Mapping (Option ExpressionSourceLocation)
  | some ⟨none, some (startLine, startCol, endLine, endCol)⟩ => .ok (some ⟨none, none, startLine, startCol, endLine, endCol⟩)
  | some ⟨some module, some (startLine, startCol, endLine, endCol)⟩ => do
      let packageId ← resolvePackageId tables currentPackageId module.packageId
      let moduleName ← resolveInternedDottedName tables (some module.moduleNameInternedDname)
      .ok (some ⟨some packageId, some moduleName, startLine, startCol, endLine, endCol⟩)
  | _ => .ok none

def mapValueReference (valueReference : Raw.ValueId) : Mapping ValueReference := do
  let packageId ← resolvePackageId tables currentPackageId (valueReference.module.bind (·.packageId))
  let moduleName ← resolveInternedDottedName tables (valueReference.module.map (·.moduleNameInternedDname))
  let definitionName ← resolveInternedDottedName tables (some valueReference.nameInternedDname)
  .ok ⟨packageId, moduleName, definitionName⟩

def mapBuiltinLit : Raw.BuiltinLit → Mapping DamlLfNode
  | .textInternedStr index => do
      let textLiteral ← resolveInternedString tables (some index)
      .ok (.textLiteral textLiteral)
  | .int64 value => .ok (.int64Literal value)
  | .numericInternedStr index => do
      let numericLiteral ← resolveInternedString tables (some index)
      .ok (.numericLiteral numericLiteral)
  | .timestamp value => .ok (.textLiteral value)
  | .date value => .ok (.textLiteral (toString value))
  | .other => .ok (.unsupported (some "builtinLit"))

def mapBuiltinCon : Raw.BuiltinCon → BuiltinConstructor
  | .conTrue => .true
  | .conFalse => .false
  | _ => .unit

def mapCasePattern : Raw.CaseAltSum → Mapping CasePattern
  | .builtinCon builtinCon => .ok ⟨.builtinCon, some (mapBuiltinCon builtinCon), none, none, none, none⟩
  | .variant variantInternedStr binderInternedStr => do
      let constructorName ← resolveInternedString tables (some variantInternedStr)
      let binderName ← resolveInternedString tables (some binderInternedStr)
      .ok ⟨.variant, none, some constructorName, some binderName, none, none⟩
  | .optionalNone => .ok ⟨.optionalNone, none, none, none, none, none⟩
  | .optionalSome varBodyInternedStr => do
      let binderName ← resolveInternedString tables (some varBodyInternedStr)
      .ok ⟨.optionalSome, none, none, some binderName, none, none⟩
  | .enum constructorInternedStr => do
      let constructorName ← resolveInternedString tables (some constructorInternedStr)
      .ok ⟨.enum, none, some constructorName, none, none, none⟩
  | .nil => .ok ⟨.nil, none, none, none, none, none⟩
  | .cons varHeadInternedStr varTailInternedStr => do
      let headBinderName ← resolveInternedString tables (some varHeadInternedStr)
      let tailBinderName ← resolveInternedString tables (some varTailInternedStr)
      .ok ⟨.cons, none, none, none, some headBinderName, some tailBinderName⟩
  | .default => .ok ⟨.default, none, none, none, none, none⟩

section MapExpression

variable (mapExpression : Option Raw.Expr → Mapping DamlLfExpression)

/-- A field of a record or struct, or a binding of a `let` or of a block. -/
def mapNamedExpression (nameInternedStr : Option Int) (rawValue : Option Raw.Expr) : Mapping (String × DamlLfExpression) := do
  let name ← resolveInternedString tables nameInternedStr
  let value ← mapExpression rawValue
  .ok (name, value)

def mapFields (fields : List (Int × Option Raw.Expr)) : Mapping (List (String × DamlLfExpression)) :=
  fields.mapM fun field => mapNamedExpression tables mapExpression (some field.1) field.2

def mapBindings (bindings : List (Option Int × Option Raw.Expr)) : Mapping (List (String × DamlLfExpression)) :=
  bindings.mapM fun binding => mapNamedExpression tables mapExpression binding.1 binding.2

def mapAlternative (alternative : Raw.CaseAltSum × Option Raw.Expr) : Mapping (CasePattern × DamlLfExpression) := do
  let pattern ← mapCasePattern tables alternative.1
  let body ← mapExpression alternative.2
  .ok (pattern, body)

/-- An expression that may be missing. -/
def mapOptionalExpression : Option Raw.Expr → Mapping (Option DamlLfExpression)
  | none => .ok none
  | some rawExpression => do
      let expression ← mapExpression (some rawExpression)
      .ok (some expression)

def mapUpdateExpression : Raw.Update → Mapping DamlLfUpdateExpression
  | .pure expr => do
      let expression ← mapExpression expr
      .ok (.pure expression)
  | .block rawBindings rawBody => do
      let bindings ← mapBindings tables mapExpression rawBindings
      let body ← mapExpression rawBody
      .ok (.block bindings body)
  | .embedExpr body => do
      let expression ← mapExpression body
      .ok (.embedExpr expression)
  | .tryCatch tryExpr varInternedStr catchExpr => do
      let expression ← mapExpression tryExpr
      let catchVariableName ← resolveInternedString tables (some varInternedStr)
      let catchExpression ← mapExpression catchExpr
      .ok (.tryCatch expression catchVariableName catchExpression)
  | .create template expr => do
      let templateId ← mapTemplateReference tables currentPackageId template
      let argument ← mapExpression expr
      .ok (.create templateId argument)
  | .createInterface interface expr => do
      let interfaceId ← mapTemplateReference tables currentPackageId interface
      let argument ← mapExpression expr
      .ok (.createInterface interfaceId argument)
  | .fetch template cid => do
      let templateId ← mapTemplateReference tables currentPackageId template
      let contractId ← mapExpression cid
      .ok (.fetch templateId contractId)
  | .fetchInterface interface cid => do
      let interfaceId ← mapTemplateReference tables currentPackageId interface
      let contractId ← mapExpression cid
      .ok (.fetchInterface interfaceId contractId)
  | .exercise template choiceInternedStr cid arg => do
      let templateId ← mapTemplateReference tables currentPackageId template
      let choiceName ← resolveInternedString tables (some choiceInternedStr)
      let contractId ← mapExpression cid
      let argument ← mapExpression arg
      .ok (.exercise templateId choiceName contractId argument)
  | .exerciseInterface interface choiceInternedStr cid arg guard => do
      let interfaceId ← mapTemplateReference tables currentPackageId interface
      let choiceName ← resolveInternedString tables (some choiceInternedStr)
      let contractId ← mapExpression cid
      let argument ← mapExpression arg
      let guardExpression ← mapOptionalExpression mapExpression guard
      .ok (.exerciseInterface interfaceId choiceName contractId argument guardExpression)
  | .getTime => .ok .getTime
  | .ledgerTimeLt time => do
      let expression ← mapExpression time
      .ok (.ledgerTimeLt expression)
  | .other oneofKind => .ok (.embedExpr (.mk (.unsupported (some ("update." ++ oneofKind.getD "unknown"))) none))

/-- The forms that become a node of their own. -/
def mapNode : Raw.ExprSum → Mapping DamlLfNode
  | .varInternedStr index => do
      let variableName ← resolveInternedString tables (some index)
      .ok (.variableName variableName)
  | .builtinLit literal => mapBuiltinLit tables literal
  | .builtinCon builtinCon => .ok (.builtinConstructor (mapBuiltinCon builtinCon))
  | .builtin name => .ok (.builtinFunction (builtinFunctionText name))
  | .val value => do
      let valueReference ← mapValueReference tables currentPackageId value
      .ok (.valueReference valueReference)
  | .abs param rawBody => do
      let parameters ← param.mapM fun parameter => resolveInternedString tables (some parameter)
      let body ← mapExpression rawBody
      .ok (.lambda parameters body)
  | .app rawFunction args => do
      let function ← mapExpression rawFunction
      let arguments ← args.mapM fun argument => mapExpression (some argument)
      .ok (.application function arguments)
  | .recCon rawFields => do
      let fields ← mapFields tables mapExpression rawFields
      .ok (.recordConstruction fields)
  | .recProj fieldInternedStr rawRecord => do
      let fieldName ← resolveInternedString tables (some fieldInternedStr)
      let record ← mapExpression rawRecord
      .ok (.recordProjection fieldName record)
  | .recUpd fieldInternedStr rawRecord update => do
      let fieldName ← resolveInternedString tables (some fieldInternedStr)
      let record ← mapExpression rawRecord
      let value ← mapExpression update
      .ok (.recordUpdate fieldName record value)
  | .variantCon variantConInternedStr variantArg => do
      let constructorName ← resolveInternedString tables (some variantConInternedStr)
      let argument ← mapExpression variantArg
      .ok (.variantConstruction constructorName argument)
  | .structCon rawFields => do
      let fields ← mapFields tables mapExpression rawFields
      .ok (.recordConstruction fields)
  | .structProj fieldInternedStr rawStruct => do
      let fieldName ← resolveInternedString tables (some fieldInternedStr)
      let record ← mapExpression rawStruct
      .ok (.recordProjection fieldName record)
  | .structUpd fieldInternedStr rawStruct update => do
      let fieldName ← resolveInternedString tables (some fieldInternedStr)
      let record ← mapExpression rawStruct
      let value ← mapExpression update
      .ok (.recordUpdate fieldName record value)
  | .optionalNone => .ok (.optionalConstruction none)
  | .optionalSome rawValue => do
      let value ← mapExpression rawValue
      .ok (.optionalConstruction (some value))
  | .update rawUpdate => do
      let update ← mapUpdateExpression tables currentPackageId mapExpression rawUpdate
      .ok (.updateExpression update)
  | .enumCon enumConInternedStr => do
      let constructorName ← resolveInternedString tables (some enumConInternedStr)
      .ok (.enumConstruction constructorName)
  | .nil => .ok (.listConstruction [] none)
  | .cons rawFront rawTail => do
      let front ← rawFront.mapM fun item => mapExpression (some item)
      let tail ← mapExpression rawTail
      .ok (.listConstruction front (some tail))
  | .throw exceptionExpr => do
      let exception ← mapExpression exceptionExpr
      .ok (.throwExpression exception)
  | .case scrut alts => do
      let scrutinee ← mapExpression scrut
      let alternatives ← alts.mapM fun alternative => mapAlternative tables mapExpression alternative
      .ok (.caseExpression scrutinee alternatives)
  | .let_ rawBindings rawBody => do
      let bindings ← mapBindings tables mapExpression rawBindings
      let body ← mapExpression rawBody
      .ok (.letExpression bindings body)
  | .other oneofKind => .ok (.unsupported oneofKind)
  | .tyApp _ | .tyAbs _ | .internedExpr _ => .ok (.unsupported none)

/-- Type applications, type abstractions and references are what they hold. -/
def mapExpressionWithoutSourceLocation : Raw.ExprSum → Mapping DamlLfExpression
  | .tyApp expr => mapExpression expr
  | .tyAbs body => mapExpression body
  | .internedExpr index => mapExpression (entryAt tables.internedExprs index)
  | sum => do
      let node ← mapNode tables currentPackageId mapExpression sum
      .ok (.mk node none)

/-- The body of `mapExpression`, for given recursive calls. -/
def mapExpressionWith : Option Raw.Expr → Mapping DamlLfExpression
  | none => .ok (.mk (.unsupported none) none)
  | some (.mk sum location) => do
      let expression ← mapExpressionWithoutSourceLocation tables currentPackageId mapExpression sum
      let sourceLocation ← mapExpressionSourceLocation tables currentPackageId location
      .ok (expression.withSourceLocation sourceLocation)

end MapExpression

def mapExpression : Nat → Option Raw.Expr → Mapping DamlLfExpression
  | 0, _ => .error .gaveUp
  | fuel + 1, rawExpression => mapExpressionWith tables currentPackageId (mapExpression fuel) rawExpression

end Expressions

/-! ## Packages -/

structure MappedField where
  name : String
  type : MappedType

inductive MappedDataTypeDefinition
  | record (fields : List MappedField)
  | variant (constructors : List MappedField)
  | enum (constructors : List String)

/-- The fields of a record; other data types have none. -/
def MappedDataTypeDefinition.fields : MappedDataTypeDefinition → List MappedField
  | .record fields => fields
  | _ => []

structure MappedDataType where
  name : String
  definition : MappedDataTypeDefinition
  serializable : Bool
  typeParameters : List DamlLfTypeParameter

structure MappedChoice where
  name : String
  consuming : Bool
  selfBinderName : String
  parameter : MappedField
  returnType : MappedType
  updateExpression : Option DamlLfExpression

structure MappedTemplate where
  templateId : DamlLfTemplateId
  name : String
  parameterName : String
  fields : List MappedField
  choices : List MappedChoice

structure MappedValueDefinition where
  name : String
  type : MappedType
  expression : DamlLfExpression

inductive MappedDefinition
  | dataType (definition : MappedDataType)
  | valueDefinition (definition : MappedValueDefinition)
  | template (definition : MappedTemplate)

structure MappedModule where
  name : String
  definitions : List MappedDefinition

structure MappedPackage where
  packageId : String
  packageName : String
  packageVersion : String
  modules : List MappedModule

section Packages

variable (packageId : String) (tables : Raw.Tables) (fuel : Nat)

/-- `mapField`, and what is done with the constructors of a variant and the parameter of a choice. -/
def mapField (nameInternedStr : Int) (rawType : Option Raw.LfType) : Mapping MappedField := do
  let name ← resolveInternedString tables (some nameInternedStr)
  let type ← mapType tables packageId fuel rawType
  .ok ⟨name, type⟩

def mapDefinition : Raw.DataCons → Mapping (Option MappedDataTypeDefinition)
  | .record rawFields => do
      let fields ← rawFields.mapM fun item => mapField packageId tables fuel item.1 item.2
      .ok (some (.record fields))
  | .variant rawFields => do
      let constructors ← rawFields.mapM fun item => mapField packageId tables fuel item.1 item.2
      .ok (some (.variant constructors))
  | .enum constructorsInternedStr => do
      let constructors ← constructorsInternedStr.mapM fun item => resolveInternedString tables (some item)
      .ok (some (.enum constructors))
  | .other => .ok none

def mapDataType (rawDataType : Raw.DefDataType) : Mapping (Option MappedDataType) := do
  let definition ← mapDefinition packageId tables fuel rawDataType.dataCons
  match definition with
  | none => .ok none
  | some definition => do
      let name ← resolveInternedDottedName tables (some rawDataType.nameInternedDname)
      .ok (some ⟨name, definition, rawDataType.serializable, rawDataType.params.map (mapTypeParameter tables)⟩)

def mapChoiceParameter : Option (Int × Option Raw.LfType) → Mapping MappedField
  | none => decodeException "daml lf template choice is missing its argument binder"
  | some (varInternedStr, rawType) => mapField packageId tables fuel varInternedStr rawType

def mapChoice (rawChoice : Raw.TemplateChoice) : Mapping MappedChoice := do
  let name ← resolveInternedString tables (some rawChoice.nameInternedStr)
  let selfBinderName ← resolveInternedString tables (some rawChoice.selfBinderInternedStr)
  let parameter ← mapChoiceParameter packageId tables fuel rawChoice.argBinder
  let returnType ← mapType tables packageId fuel rawChoice.retType
  let updateExpression ← mapOptionalExpression (mapExpression tables packageId fuel) rawChoice.update
  .ok ⟨name, rawChoice.consuming, selfBinderName, parameter, returnType, updateExpression⟩

def matchingDataType (dataTypes : List MappedDataType) (templateName : String) : Mapping MappedDataType :=
  match dataTypes.find? fun item => item.name = templateName with
  | none => decodeException ("daml lf template '" ++ templateName ++ "' is missing its backing data type")
  | some dataType => .ok dataType

def mapTemplate (moduleName : String) (dataTypes : List MappedDataType) (rawTemplate : Raw.DefTemplate) :
    Mapping MappedTemplate := do
  let templateName ← resolveInternedDottedName tables (some rawTemplate.tyconInternedDname)
  let dataType ← matchingDataType dataTypes templateName
  let parameterName ← resolveInternedString tables (some rawTemplate.paramInternedStr)
  let choices ← rawTemplate.choices.mapM fun item => mapChoice packageId tables fuel item
  .ok ⟨⟨packageId, moduleName, templateName⟩, templateName, parameterName, dataType.definition.fields, choices⟩

def mapValue (rawValue : Raw.DefValue) : Mapping MappedValueDefinition := do
  let name ← resolveInternedDottedName tables (rawValue.nameWithType.map (·.1))
  let type ← mapType tables packageId fuel (rawValue.nameWithType.bind (·.2))
  let expression ← mapExpression tables packageId fuel rawValue.expr
  .ok ⟨name, type, expression⟩

def mapModule (rawModule : Raw.Module) : Mapping MappedModule := do
  let moduleName ← resolveInternedDottedName tables (some rawModule.nameInternedDname)
  let definedDataTypes ← rawModule.dataTypes.mapM fun item => mapDataType packageId tables fuel item
  let values ← rawModule.values.mapM fun value => mapValue packageId tables fuel value
  let templates ← rawModule.templates.mapM fun item =>
    mapTemplate packageId tables fuel moduleName (definedDataTypes.filterMap id) item
  .ok ⟨moduleName, (definedDataTypes.filterMap id).map .dataType ++ values.map .valueDefinition ++ templates.map .template⟩

end Packages

def mapPackage (fuel : Nat) (packageId : String) (rawPackage : Raw.Package) : Mapping MappedPackage := do
  let packageName ← resolveInternedString rawPackage.toTables (rawPackage.metadata.map (·.1))
  let packageVersion ← resolveInternedString rawPackage.toTables (rawPackage.metadata.map (·.2))
  let modules ← rawPackage.modules.mapM fun module => mapModule packageId rawPackage.toTables fuel module
  .ok ⟨packageId, packageName, packageVersion, modules⟩

end CantonSdk.DamlLf
