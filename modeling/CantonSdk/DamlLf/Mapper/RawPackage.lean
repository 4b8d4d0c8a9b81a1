import CantonSdk.DamlLf.Model

/-!
# Decoded packages as the archive states them

What the decoder makes of a DAML-LF archive, as far as the mapper looks at it. Names, types, kinds and expressions may be
references to tables of the package; a message that is missing is `none`.
-/

set_option linter.all false

namespace CantonSdk.DamlLf.Raw

inductive SelfOrImportedPackageId
  | selfPackageId
  | importedPackageIdInternedStr (index : Int)
  | packageImportId (index : Int)
  | unset

/-- `ModuleId`. -/
structure ModuleId where
  packageId : Option SelfOrImportedPackageId
  moduleNameInternedDname : Int

structure TypeConId where
  module : Option ModuleId
  nameInternedDname : Int

inductive BuiltinType
  | unit | bool | int64 | date | timestamp | numeric | party | text | contractId | optional | list | textMap | genMap
  | other (code : Nat)
  deriving DecidableEq

inductive Kind
  | star
  | arrow (params : List Kind) (result : Option Kind)
  | nat
  | internedKind (index : Int)
  | unset

structure TypeVarWithKind where
  varInternedStr : Int
  kind : Option Kind

/-- `Type`; structs, synonyms and types that are not set are not looked into. -/
inductive LfType
  | var (varInternedStr : Int) (args : List LfType)
  | con (tycon : Option TypeConId) (args : List LfType)
  | builtin (builtin : BuiltinType) (args : List LfType)
  | forall (vars : List TypeVarWithKind) (body : Option LfType)
  | nat (nat : Int)
  | internedType (index : Int)
  | tapp (lhs rhs : Option LfType)
  | other

/-- `Location`: the module, and the range when there is one. -/
structure Location where
  module : Option ModuleId
  range : Option (Int × Int × Int × Int)

inductive BuiltinLit
  | int64 (value : String)
  | timestamp (value : String)
  | numericInternedStr (index : Int)
  | textInternedStr (index : Int)
  | date (value : Int)
  | other

/-- The number of a constructor of `Unit` or `Bool`, by the name that the enumeration gives it. -/
inductive BuiltinCon
  | conUnit
  | conFalse
  | conTrue
  | other (code : Nat)

structure ValueId where
  module : Option ModuleId
  nameInternedDname : Int

inductive CaseAltSum
  | default
  | variant (variantInternedStr binderInternedStr : Int)
  | builtinCon (builtinCon : BuiltinCon)
  | nil
  | cons (varHeadInternedStr varTailInternedStr : Int)
  | optionalNone
  | optionalSome (varBodyInternedStr : Int)
  | enum (constructorInternedStr : Int)

mutual

inductive Expr
  | mk (sum : ExprSum) (location : Option Location)

inductive ExprSum
  | varInternedStr (index : Int)
  | val (value : ValueId)
  /-- The name of the function in the enumeration, if its number is in it. -/
  | builtin (name : Option String)
  | builtinCon (builtinCon : BuiltinCon)
  | builtinLit (literal : BuiltinLit)
  | recCon (fields : List (Int × Option Expr))
  | recProj (fieldInternedStr : Int) (record : Option Expr)
  | recUpd (fieldInternedStr : Int) (record update : Option Expr)
  | variantCon (variantConInternedStr : Int) (variantArg : Option Expr)
  | enumCon (enumConInternedStr : Int)
  | structCon (fields : List (Int × Option Expr))
  | structProj (fieldInternedStr : Int) (struct : Option Expr)
  | structUpd (fieldInternedStr : Int) (struct update : Option Expr)
  | app (fun_ : Option Expr) (args : List Expr)
  | tyApp (expr : Option Expr)
  | abs (param : List Int) (body : Option Expr)
  | tyAbs (body : Option Expr)
  | case (scrut : Option Expr) (alts : List (CaseAltSum × Option Expr))
  | let_ (bindings : List (Option Int × Option Expr)) (body : Option Expr)
  | nil
  | cons (front : List Expr) (tail : Option Expr)
  | update (update : Update)
  | optionalNone
  | optionalSome (value : Option Expr)
  | throw (exceptionExpr : Option Expr)
  | internedExpr (index : Int)
  | other (oneofKind : Option String)

inductive Update
  | pure (expr : Option Expr)
  | block (bindings : List (Option Int × Option Expr)) (body : Option Expr)
  | create (template : Option TypeConId) (expr : Option Expr)
  | exercise (template : Option TypeConId) (choiceInternedStr : Int) (cid arg : Option Expr)
  | fetch (template : Option TypeConId) (cid : Option Expr)
  | getTime
  | embedExpr (body : Option Expr)
  | createInterface (interface : Option TypeConId) (expr : Option Expr)
  | exerciseInterface (interface : Option TypeConId) (choiceInternedStr : Int) (cid arg guard : Option Expr)
  | fetchInterface (interface : Option TypeConId) (cid : Option Expr)
  | tryCatch (tryExpr : Option Expr) (varInternedStr : Int) (catchExpr : Option Expr)
  | ledgerTimeLt (time : Option Expr)
  | other (oneofKind : Option String)

end

/-! ## Definitions -/

inductive DataCons
  | record (fields : List (Int × Option LfType))
  | variant (fields : List (Int × Option LfType))
  | enum (constructorsInternedStr : List Int)
  | other

structure DefDataType where
  nameInternedDname : Int
  params : List TypeVarWithKind
  serializable : Bool
  dataCons : DataCons

structure DefValue where
  nameWithType : Option (Int × Option LfType)
  expr : Option Expr

structure TemplateChoice where
  nameInternedStr : Int
  consuming : Bool
  selfBinderInternedStr : Int
  argBinder : Option (Int × Option LfType)
  retType : Option LfType
  update : Option Expr

structure DefTemplate where
  tyconInternedDname : Int
  paramInternedStr : Int
  choices : List TemplateChoice

structure Module where
  nameInternedDname : Int
  dataTypes : List DefDataType
  values : List DefValue
  templates : List DefTemplate

/-- What the mapper looks up. -/
structure Tables where
  internedStrings : List String
  internedDottedNames : List (List Int)
  internedTypes : List LfType
  internedKinds : List Kind
  internedExprs : List Expr
  /-- The packages of `packageImports`, if the imports are given so. -/
  importedPackages : Option (List String)

structure Package extends Tables where
  /-- The name and the version. -/
  metadata : Option (Int × Int)
  modules : List Module

end CantonSdk.DamlLf.Raw
