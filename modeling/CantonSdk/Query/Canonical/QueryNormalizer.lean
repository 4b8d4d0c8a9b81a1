import CantonSdk.Base.Checked
import CantonSdk.Base.Text
import CantonSdk.Query.Canonical.Ast

/-!
# Normalization of filters and orders

`query-normalizer` turns what a caller hands over into a predicate and into an order. An object holds its own properties in the order in
which the host enumerates them.
-/

set_option linter.all false

namespace CantonSdk.Query.Canonical

open CantonSdk.Base

/-- What a caller may hand over. -/
inductive QueryInput where
  | undefined
  | null
  | bool (value : Bool)
  | text (value : String)
  | date (milliseconds : Int)
  | invalidDate
  | bytes (value : List UInt8)
  | array (items : List QueryInput)
  /-- An object, and whether it is a plain one. -/
  | object (plain : Bool) (fields : List (String × QueryInput))
  /-- A number, a bigint, a symbol or a function. -/
  | other

/-- A result, or the message of a `QueryValidationError`. -/
abbrev Normalized (α : Type) := Except String α

/-! ## Values -/

mutual

/-- `clone`. What has no place in a predicate is refused before it is cloned. -/
def clone : QueryInput → QueryValue
  | .bool value => .bool value
  | .text value => .text value
  | .date milliseconds => .text (toISOString milliseconds)
  | .bytes value => .array (value.map fun byte => .number byte.toNat)
  | .array items => .array (cloneItems items)
  | .object _ fields => .object (cloneFields fields)
  | .null | .undefined | .invalidDate | .other => .null

def cloneItems : List QueryInput → List QueryValue
  | [] => []
  | item :: rest => clone item :: cloneItems rest

def cloneFields : List (String × QueryInput) → List (String × QueryValue)
  | [] => []
  | (key, value) :: rest => (key, clone value) :: cloneFields rest

end

namespace QueryInput

def isText : QueryInput → Bool
  | text _ => true
  | _ => false

def isBool : QueryInput → Bool
  | bool _ => true
  | _ => false

/-- A segment of a JSON path. -/
def segment : QueryInput → Option String
  | text value => if value = "" then none else some value
  | _ => none

/-- `Object.entries` of an object. -/
def entries : QueryInput → List (String × QueryInput)
  | object _ fields => fields
  | _ => []

/-- What `object` throws. -/
def objectError (label : String) : QueryInput → String
  | object _ _ => label ++ " must be a plain object"
  | _ => label ++ " must be an object"

/-- `object`. -/
def plainEntries (label : String) : QueryInput → Normalized (List (String × QueryInput))
  | object true fields => .ok fields
  | value => .error (value.objectError label)

def isFilter : QueryInput → Bool
  | object _ _ => true
  | _ => false

end QueryInput

/-! ## Operators -/

/-- `scalarOperators`, by their texts. -/
def scalarOperator : String → Option ScalarOperator
  | "equals" => some .equals
  | "in" => some .in_
  | "is" => some .is
  | "isNot" => some .isNot
  | "lt" => some .lt
  | "lte" => some .lte
  | "gt" => some .gt
  | "gte" => some .gte
  | "like" => some .like
  | "ilike" => some .ilike
  | "has" => some .has
  | _ => none

def equalityOperators : List ScalarOperator := [.equals, .in_, .is, .isNot]

def orderedOperators : List ScalarOperator := [.equals, .in_, .is, .isNot, .lt, .lte, .gt, .gte]

def stringOperators : List ScalarOperator := orderedOperators ++ [.like, .ilike]

def payloadOperators : List ScalarOperator := [.equals, .lt, .lte, .gt, .gte, .like, .ilike]

inductive ScalarKind where
  | string | numericString | timestamp | boolean | json | stringArray | binary
  deriving DecidableEq

namespace ScalarKind

def name : ScalarKind → String
  | string => "string"
  | numericString => "numeric-string"
  | timestamp => "timestamp"
  | boolean => "boolean"
  | json => "json"
  | stringArray => "string-array"
  | binary => "binary"

/-- The operators that a field of this kind allows. -/
def operators : ScalarKind → List ScalarOperator
  | stringArray => equalityOperators ++ [.has]
  | string => stringOperators
  | numericString | timestamp => orderedOperators
  | boolean | json | binary => equalityOperators

/-- The values that a field of this kind may be compared with. -/
def accepts : ScalarKind → QueryInput → Bool
  | string, .text _ | numericString, .text _ | json, .text _ => true
  | boolean, .bool _ => true
  | timestamp, .date _ => true
  | stringArray, .array items => items.all QueryInput.isText
  | binary, .bytes _ => true
  | _, _ => false

end ScalarKind

def scalarKind (metadata : QueryRelationMetadata) (field : String) : Normalized ScalarKind :=
  if field ∈ metadata.stringFields then .ok .string
  else if field ∈ metadata.numericFields then .ok .numericString
  else if field ∈ metadata.dateFields then .ok .timestamp
  else if field ∈ metadata.booleanFields then .ok .boolean
  else if field ∈ metadata.jsonFields then .ok .json
  else if field ∈ metadata.arrayFields then .ok .stringArray
  else if field ∈ metadata.binaryFields then .ok .binary
  else .error (field ++ " has no scalar kind")

def validateScalarValue (field : String) (kind : ScalarKind) (nullable : Bool) (value : QueryInput) : Normalized Unit :=
  match value with
  | .null => guardThat nullable (field ++ " is not nullable")
  | value => guardThat (kind.accepts value) (field ++ " has an invalid " ++ kind.name ++ " value")

def validateOperatorValue (operator : ScalarOperator) (name field : String) (kind : ScalarKind) (nullable : Bool)
    (value : QueryInput) : Normalized Unit :=
  match operator with
  | .is | .isNot =>
      match value with
      | .null => guardThat nullable (field ++ " is not nullable")
      | _ => .error (name ++ " for " ++ field ++ " must be null")
  | .in_ =>
      match value with
      | .array items => checkAll (validateScalarValue field kind nullable) items
      | _ => .error ("in for " ++ field ++ " must be an array")
  | .has =>
      guardThat (decide (kind = .stringArray) && value.isText)
        ("has for " ++ field ++ " must be a string array membership value")
  | _ => validateScalarValue field kind nullable value

/-- The check of one operator of a filter, with what it becomes. -/
def normalizeOperator (field : String) (kind : Normalized ScalarKind) (allowed : ScalarKind → List ScalarOperator)
    (nullable : Bool) (path : List String) (entry : String × QueryInput) : Normalized QueryPredicate := do
  let unsupported := entry.1 ++ " is not supported for " ++ field
  let operator ← (scalarOperator entry.1).elim (.error unsupported) .ok
  let kind ← kind
  guardThat (decide (operator ∈ allowed kind)) unsupported
  validateOperatorValue operator entry.1 field kind nullable entry.2
  return .scalar path operator (clone entry.2)

/-! ## Filters of one field -/

def normalizeTemplateScalarFilter (field : String) (value : QueryInput) : Normalized (List QueryPredicate) := do
  guardThat value.isFilter ("templateId." ++ field ++ " must be a filter object")
  guardThat (!value.entries.isEmpty) ("templateId." ++ field ++ " filter must not be empty")
  value.entries.mapM
    (normalizeOperator ("templateId." ++ field) (.ok .string) (fun _ => stringOperators) false ["templateId", field])

def normalizeTemplateId (value : QueryInput) : Normalized (List QueryPredicate) := do
  let fields ← value.plainEntries "templateId filter"
  checkAll (fun entry : String × QueryInput =>
    guardThat (decide (entry.1 ∈ ["packageId", "moduleName", "entityName"]))
      (entry.1 ++ " is not supported by templateId")) fields
  return (← fields.mapM fun entry => normalizeTemplateScalarFilter entry.1 entry.2).flatten

def isScalarFilter : QueryInput → Bool
  | .object _ fields => fields.any fun entry => (scalarOperator entry.1).isSome
  | _ => false

def normalizePayloadScalarFilter (path : List String) (value : QueryInput) : Normalized (List QueryPredicate) := do
  guardThat (!value.entries.isEmpty) "payload filter must not be empty"
  value.entries.mapM (normalizeOperator "payload" (.ok .string) (fun _ => payloadOperators) false path)

mutual

/-- `walk` of `normalizePayloadMatch`. -/
def walk (path : List String) : QueryInput → Normalized (List QueryPredicate)
  | .object true fields => walkEntries path fields
  | value => .error (value.objectError "payload.match")

def walkEntries (path : List String) : List (String × QueryInput) → Normalized (List QueryPredicate)
  | [] => .ok []
  | (name, child) :: rest => do
      let first ← (if isScalarFilter child then normalizePayloadScalarFilter (path ++ [name]) child
        else walk (path ++ [name]) child)
      return first ++ (← walkEntries path rest)

end

def normalizePayloadMatch (value : QueryInput) : Normalized (List QueryPredicate) := do
  match ← value.plainEntries "payload filter" with
  | [("match", child)] => walk ["payload"] child
  | _ => .error "payload filter must contain match"

def normalizeContractWitnesses (value : QueryInput) : Normalized (List QueryPredicate) := do
  match ← value.plainEntries "witnesses filter" with
  | [("has", .text party)] => return [.scalar ["witnesses"] .has (.text party)]
  | _ => .error "witnesses must use \x7b has: string \x7d"

def jsonPath (label : String) (value : QueryInput) : Normalized (List String) :=
  let error := label ++ " must be a non-empty JSON path"
  match value with
  | .array items => do
      guardThat (!items.isEmpty) error
      items.mapM fun item => item.segment.elim (.error error) .ok
  | _ => .error error

/-- The value under `path`. -/
def pathEntry (fields : List (String × QueryInput)) : QueryInput :=
  ((fields.find? fun entry => decide (entry.1 = "path")).map Prod.snd).getD .undefined

/-- The entries of a JSON filter that are operators. -/
def operatorEntries (fields : List (String × QueryInput)) : List (String × QueryInput) :=
  fields.filter fun entry => decide (entry.1 ≠ "path")

def normalizeJsonFilter (field : String) (value : QueryInput) : Normalized (List QueryPredicate) := do
  let filter ← value.plainEntries (field ++ " JSON filter")
  let path ← jsonPath (field ++ ".path") (pathEntry filter)
  guardThat (!(operatorEntries filter).isEmpty) (field ++ " JSON filter must contain an operator")
  (operatorEntries filter).mapM
    (normalizeOperator field (.ok .string) (fun _ => stringOperators) true (field :: path))

def normalizeScalarFilter (relation : QueryRelation) (field : String) (value : QueryInput) :
    Normalized (List QueryPredicate) :=
  let metadata := queryRelationMetadata relation
  if relation = .contracts ∧ field = "witnesses" then normalizeContractWitnesses value
  else if relation = .contracts ∧ field = "active" ∧ value.isBool then .ok [.scalar [field] .equals (clone value)]
  else do
    guardThat value.isFilter (field ++ " must be a filter object")
    if field ∈ metadata.jsonFields then normalizeJsonFilter field value
    else
      guardThat (!value.entries.isEmpty) (field ++ " filter must not be empty")
      value.entries.mapM (normalizeOperator field (scalarKind metadata field) ScalarKind.operators
        (decide (field ∈ metadata.nullableFields)) [field])

/-! ## Predicates -/

/-- Which branch of `normalizePredicate` takes an entry. -/
inductive WhereEntry where
  | and | or | not | templateId | payload
  | edge (edge : QueryEdge)
  | field
  deriving DecidableEq

def relationEdge (relation : QueryRelation) (field : String) : Option QueryEdge :=
  (queryRelationEdges relation).find? fun edge => decide (edge.name = field)

def whereEntry (relation : QueryRelation) (field : String) : WhereEntry :=
  if field = "and" then .and
  else if field = "or" then .or
  else if field = "not" then .not
  else if relation = .contracts ∧ field = "templateId" then .templateId
  else if relation = .contracts ∧ field = "payload" then .payload
  else (relationEdge relation field).elim .field .edge

def combine (kind : List QueryPredicate → QueryPredicate) : List QueryPredicate → Option QueryPredicate
  | [] => none
  | [child] => some child
  | children => some (kind children)

/-- A predicate that has to be there. -/
def required (message : String) (predicate : Option QueryPredicate) : Normalized QueryPredicate :=
  predicate.elim (.error message) .ok

/-- The quantifiers of a to-many edge. -/
def manyQuantifier : String → Option Quantifier
  | "some" => some .some
  | "none" => some .none
  | "every" => some .every
  | _ => none

mutual

def normalizePredicate (relation : QueryRelation) : QueryInput → Normalized (Option QueryPredicate)
  | .object true fields => do return combine .and (← normalizeEntries relation fields)
  | value => .error (value.objectError (relation.name ++ ".where"))

/-- The loop of `normalizePredicate` over the entries of an object. -/
def normalizeEntries (relation : QueryRelation) : List (String × QueryInput) → Normalized (List QueryPredicate)
  | [] => .ok []
  | (field, operand) :: rest => do
      let first ← (match whereEntry relation field with
        | .and =>
            match operand with
            | .array items => do pure [.and (← normalizeChildren relation items)]
            | _ => .error "and must be an array"
        | .or =>
            match operand with
            | .array items => do pure [.or (← normalizeChildren relation items)]
            | _ => .error "or must be an array"
        | .not => do
            let child ← required "not must contain a predicate" (← normalizePredicate relation operand)
            pure [.not child]
        | .templateId => normalizeTemplateId operand
        | .payload => normalizePayloadMatch operand
        | .edge edge => do pure [← normalizeRelationPredicate edge operand]
        | .field => do
            guardThat (decide (field ∈ (queryRelationMetadata relation).fields))
              (field ++ " is not a field of " ++ relation.name)
            normalizeScalarFilter relation field operand)
      return first ++ (← normalizeEntries relation rest)

/-- The disjuncts or conjuncts that say something. -/
def normalizeChildren (relation : QueryRelation) : List QueryInput → Normalized (List QueryPredicate)
  | [] => .ok []
  | child :: rest => do
      let first ← normalizePredicate relation child
      return first.toList ++ (← normalizeChildren relation rest)

def normalizeRelationPredicate (edge : QueryEdge) : QueryInput → Normalized QueryPredicate
  | .object true fields =>
      match edge.cardinality with
      | .one => do
          guardThat (fields.all fun entry => decide (entry.1 ∉ ["one", "some", "none", "every"]))
            (edge.name ++ " is a to-one relation and does not support relation quantifiers")
          -- `normalizePredicate` of the filter itself.
          let predicate ← required (edge.name ++ " relation predicate must not be empty")
            (combine .and (← normalizeEntries edge.target fields))
          return .relation edge .one predicate
      | .many =>
          match fields with
          | [(name, operand)] =>
              match manyQuantifier name with
              | some quantifier => do
                  let predicate ← required (edge.name ++ "." ++ name ++ " must contain a predicate")
                    (← normalizePredicate edge.target operand)
                  return .relation edge quantifier predicate
              | none => .error (edge.name ++ " requires exactly one of some, none, or every")
          | _ => .error (edge.name ++ " requires exactly one of some, none, or every")
  | value => .error (value.objectError (edge.name ++ " relation filter"))

end

/-! ## Orders -/

/-- `Object.keys(value).length`. -/
def ownKeyCount : QueryInput → Normalized Nat
  | .undefined | .null => .error "Cannot convert undefined or null to object"
  | .text value => .ok (codeUnits value).length
  | .bytes value => .ok value.length
  | .array items => .ok items.length
  | .object _ fields => .ok fields.length
  | .bool _ | .date _ | .invalidDate | .other => .ok 0

def assertQueryOrderBy (orderBy : List QueryInput) : Normalized Unit := do
  let error := "orderBy must be a non-empty list of one-field entries"
  guardThat (!orderBy.isEmpty) error
  checkAll (fun entry => do guardThat ((← ownKeyCount entry) == 1) error) orderBy

/-- One entry of `orderBy`. -/
def normalizeOrder (relation : QueryRelation) (entry : QueryInput) : Normalized NormalizedOrder := do
  let (field, direction) := ((← entry.plainEntries "orderBy entry").head?).getD ("undefined", .undefined)
  guardThat (decide (field ∈ (queryRelationMetadata relation).orderFields))
    (field ++ " is not orderable on " ++ relation.name)
  match direction with
  | .text "asc" => return { path := [field], direction := .asc }
  | .text "desc" => return { path := [field], direction := .desc }
  | _ => .error ("Invalid order direction for " ++ field)

/-- The fields of the stable order, behind those that are requested. -/
def appendStable (metadata : QueryRelationMetadata) (requested : List NormalizedOrder) : List NormalizedOrder :=
  metadata.stableOrder.foldl (fun orders field =>
    if orders.any fun order => decide (order.path = [field]) then orders
    else orders ++ [{ path := [field], direction := .asc }]) requested

def normalizeOrderBy (relation : QueryRelation) (value : QueryInput) (stable : Bool) :
    Normalized (List NormalizedOrder) := do
  let requested ← (match value with
    | .undefined => .ok []
    | .array entries => do
        assertQueryOrderBy entries
        entries.mapM (normalizeOrder relation)
    | _ => .error "orderBy must be a non-empty list of one-field entries")
  return if stable then appendStable (queryRelationMetadata relation) requested else requested

end CantonSdk.Query.Canonical
