import CantonSdk.DamlLf.Interpreter.Expression
import CantonSdk.DamlLf.Model

/-!
# What decoded packages are mapped to

The types and expressions that the mapper builds from a decoded package. An expression that it builds has one node, and
where it stands in a source file, if that is known.
-/

set_option linter.all false

namespace CantonSdk.DamlLf

open CantonSdk.DamlLf.Interpreter

/-- `DamlLfType`, with the body of a `forall` that is retained for diagnostics. -/
inductive MappedType
  | mk (builtinType : DamlLfBuiltinType) (numericScale : Option Nat) (typeConReference : Option TypeConReference)
      (typeVariable : Option DamlLfTypeVariableReference)
      (diagnosticForall : Option (List DamlLfTypeParameter × MappedType)) (typeArguments : List MappedType)

/-- `IDamlLfExpressionSourceLocation`. -/
structure ExpressionSourceLocation where
  packageId : Option String
  moduleName : Option String
  startLine : Int
  startColumn : Int
  endLine : Int
  endColumn : Int
  deriving DecidableEq

mutual

inductive DamlLfExpression
  | mk (node : DamlLfNode) (sourceLocation : Option ExpressionSourceLocation)

inductive DamlLfNode
  | textLiteral (value : String)
  | numericLiteral (value : String)
  | int64Literal (value : String)
  | valueReference (reference : ValueReference)
  | variableName (name : String)
  | lambda (parameters : List String) (body : DamlLfExpression)
  | application (function : DamlLfExpression) (arguments : List DamlLfExpression)
  | letExpression (bindings : List (String × DamlLfExpression)) (body : DamlLfExpression)
  | recordConstruction (fields : List (String × DamlLfExpression))
  | recordProjection (fieldName : String) (record : DamlLfExpression)
  | recordUpdate (fieldName : String) (record value : DamlLfExpression)
  | throwExpression (exception : DamlLfExpression)
  | builtinConstructor (constructor : BuiltinConstructor)
  | builtinFunction (name : String)
  | caseExpression (scrutinee : DamlLfExpression) (alternatives : List (CasePattern × DamlLfExpression))
  | variantConstruction (constructorName : String) (argument : DamlLfExpression)
  | optionalConstruction (value : Option DamlLfExpression)
  | enumConstruction (constructorName : String)
  | listConstruction (front : List DamlLfExpression) (tail : Option DamlLfExpression)
  | updateExpression (update : DamlLfUpdateExpression)
  | unsupported (nodeKind : Option String)

/-- `IDamlLfUpdateExpression`, with the parts that the mapper gives to each kind. -/
inductive DamlLfUpdateExpression
  | pure (expression : DamlLfExpression)
  | block (bindings : List (String × DamlLfExpression)) (body : DamlLfExpression)
  | embedExpr (expression : DamlLfExpression)
  | tryCatch (expression : DamlLfExpression) (catchVariableName : String) (catchExpression : DamlLfExpression)
  | create (templateId : DamlLfTemplateId) (argument : DamlLfExpression)
  | createInterface (interfaceId : DamlLfTemplateId) (argument : DamlLfExpression)
  | fetch (templateId : DamlLfTemplateId) (contractId : DamlLfExpression)
  | fetchInterface (interfaceId : DamlLfTemplateId) (contractId : DamlLfExpression)
  | exercise (templateId : DamlLfTemplateId) (choiceName : String) (contractId argument : DamlLfExpression)
  | exerciseInterface (interfaceId : DamlLfTemplateId) (choiceName : String) (contractId argument : DamlLfExpression)
      (guardExpression : Option DamlLfExpression)
  | getTime
  | ledgerTimeLt (expression : DamlLfExpression)

end

def DamlLfExpression.node : DamlLfExpression → DamlLfNode
  | .mk node _ => node

end CantonSdk.DamlLf
