import CantonSdk.DamlLf.Interpreter.RuntimeValue
import CantonSdk.DamlLf.Model

/-!
# Expressions of the interpreter

`DamlLfExpression`: an expression has one node at most, and a node has the fields of its kind. Where the source
puts an empty expression in the place of one that is missing, the model has `unsupported none`.
-/

set_option linter.all false

namespace CantonSdk.DamlLf.Interpreter

structure ValueReference where
  packageId : String
  moduleName : String
  definitionName : String

inductive BuiltinConstructor
  | unit
  | false
  | true
  deriving DecidableEq

inductive PatternKind
  | default
  | builtinCon
  | variant
  | optionalNone
  | optionalSome
  | enum
  | nil
  | cons
  deriving DecidableEq

def PatternKind.text : PatternKind → String
  | .default => "default"
  | .builtinCon => "builtinCon"
  | .variant => "variant"
  | .optionalNone => "optionalNone"
  | .optionalSome => "optionalSome"
  | .enum => "enum"
  | .nil => "nil"
  | .cons => "cons"

/-- `IDamlLfCaseAlternative`, but for its body. -/
structure CasePattern where
  patternKind : PatternKind
  builtinConstructor : Option BuiltinConstructor
  constructorName : Option String
  binderName : Option String
  headBinderName : Option String
  tailBinderName : Option String

mutual

inductive Expression
  | textLiteral (value : String)
  | numericLiteral (value : String)
  | int64Literal (value : String)
  | variableName (name : String)
  | builtinConstructor (constructor : BuiltinConstructor)
  | builtinFunction (function : BuiltinFunction)
  | lambda (parameters : List String) (body : Expression)
  | application (function : Expression) (arguments : List Expression)
  | letExpression (bindings : List (String × Expression)) (body : Expression)
  | recordConstruction (fields : List (String × Expression))
  | recordProjection (fieldName : String) (record : Expression)
  | recordUpdate (fieldName : String) (record value : Expression)
  | throwExpression (exception : Expression)
  | variantConstruction (constructorName : String) (argument : Expression)
  | optionalConstruction (value : Option Expression)
  | enumConstruction (constructorName : String)
  | listConstruction (front : List Expression) (tail : Option Expression)
  | updateExpression (update : Update)
  | caseExpression (scrutinee : Expression) (alternatives : List (CasePattern × Expression))
  | valueReference (reference : ValueReference)
  | unsupported (nodeKind : Option String)

/-- `IDamlLfUpdateExpression`. -/
inductive Update
  | pure (expression : Expression)
  | embedExpr (expression : Expression)
  | block (bindings : List (String × Expression)) (body : Expression)
  | tryCatch (expression : Expression) (catchVariableName : Option String) (catchExpression : Expression)
  | create (templateId : Option DamlLfTemplateId) (argument : Expression)
  | fetch (templateId : Option DamlLfTemplateId) (contractId : Expression)
  | fetchInterface (contractId : Expression)
  | exercise (templateId : Option DamlLfTemplateId) (choiceName : Option String) (contractId argument : Expression)
  | exerciseInterface (choiceName : Option String) (contractId argument : Expression)
  | getTime
  | ledgerTimeLt (expression : Option Expression)
  | unsupported (kind : String)

end

/-- `DamlLfValueDefinition`. -/
structure ValueDefinition where
  name : String
  expression : Expression

end CantonSdk.DamlLf.Interpreter
