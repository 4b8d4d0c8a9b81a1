import CantonSdk.Base.Sorting
import CantonSdk.Query.Canonical.QueryNormalizer

/-!
# Normalization of whole queries

The rest of `query-normalizer`: selections, includes, pages, parties, aggregates and group keys, and the queries that are
made of them. Filters and orders never look at a number, so a number is handed on to them as something that is refused.
-/

set_option linter.all false

namespace CantonSdk.Query.Canonical

open CantonSdk.Base

/-- What a caller may hand over as the arguments of a query. A number is an integer or it is not. -/
inductive QueryArgument where
  | undefined
  | null
  | bool (value : Bool)
  | number (integer : Option Int)
  | text (value : String)
  | date (milliseconds : Int)
  | invalidDate
  | bytes (value : List UInt8)
  | array (items : List QueryArgument)
  /-- An object, and whether it is a plain one. -/
  | object (plain : Bool) (fields : List (String × QueryArgument))
  /-- A bigint, a symbol or a function. -/
  | other

namespace QueryArgument

mutual

/-- The argument of a filter or of an order. -/
def input : QueryArgument → QueryInput
  | undefined => .undefined
  | null => .null
  | bool value => .bool value
  | text value => .text value
  | date milliseconds => .date milliseconds
  | invalidDate => .invalidDate
  | bytes value => .bytes value
  | array items => .array (inputItems items)
  | object plain fields => .object plain (inputFields fields)
  | number _ | other => .other

def inputItems : List QueryArgument → List QueryInput
  | [] => []
  | item :: rest => item.input :: inputItems rest

def inputFields : List (String × QueryArgument) → List (String × QueryInput)
  | [] => []
  | (key, value) :: rest => (key, value.input) :: inputFields rest

end

def isUndefined : QueryArgument → Bool
  | undefined => true
  | _ => false

def objectError (label : String) : QueryArgument → String
  | object _ _ => label ++ " must be a plain object"
  | _ => label ++ " must be an object"

/-- `object`. -/
def plainEntries (label : String) : QueryArgument → Normalized (List (String × QueryArgument))
  | object true fields => .ok fields
  | value => .error (value.objectError label)

/-- The texts of an array of strings. -/
def texts : QueryArgument → Option (List String)
  | array items => items.mapM fun item =>
      match item with
      | text value => some value
      | _ => none
  | _ => none

/-- A property of an object. -/
def property (fields : List (String × QueryArgument)) (key : String) : QueryArgument := (fields.lookup key).getD .undefined

end QueryArgument

open QueryArgument

def assertKnown (fields : List (String × QueryArgument)) (allowed : List String) (label : String) : Normalized Unit :=
  checkAll (fun entry : String × QueryArgument =>
    guardThat (decide (entry.1 ∈ allowed)) (entry.1 ++ " is not supported by " ++ label)) fields

/-- A part of a query that is normalized unless it is left out. -/
def unlessUndefined {α : Type} (absent : α) (normalize : QueryArgument → Normalized α) (value : QueryArgument) : Normalized α :=
  if value.isUndefined then .ok absent else normalize value

/-! ## Selections -/

def jsonScalarType : QueryArgument → Option JsonScalarType
  | .text "text" => some .text
  | .text "numeric" => some .numeric
  | .text "boolean" => some .boolean
  | .text "timestamp" => some .timestamp
  | _ => none

/-- `String(value)` of what should have been a text; how the host writes dates, arrays and functions is not followed. -/
def shownField : QueryArgument → String
  | .text value => value
  | .number (some integer) => toString integer
  | .number none => "NaN"
  | .undefined => "undefined"
  | .null => "null"
  | .bool true => "true"
  | .bool false => "false"
  | _ => "[object Object]"

def normalizeJsonSelection (relation : QueryRelation) (name : String) (value : QueryArgument) :
    Normalized NormalizedJsonSelection := do
  let projection ← value.plainEntries ("select.json." ++ name)
  assertKnown projection ["field", "path", "as"] ("select.json." ++ name)
  match property projection "field" with
  | .text field => do
      guardThat (decide (field ∈ (queryRelationMetadata relation).jsonFields))
        (field ++ " is not a JSON field of " ++ relation.name)
      let as ← (jsonScalarType (property projection "as")).elim (.error ("select.json." ++ name ++ ".as is invalid")) .ok
      let path ← jsonPath ("select.json." ++ name ++ ".path") (property projection "path").input
      return ⟨name, field, path, as⟩
  | value => .error (shownField value ++ " is not a JSON field of " ++ relation.name)

/-- What one entry of a selection selects. -/
def normalizeSelected (relation : QueryRelation) (field : String) (enabled : QueryArgument) : Normalized NormalizedSelection :=
  if field = "json" then do
    let projections ← enabled.plainEntries "select.json"
    return ⟨[], ← projections.mapM fun entry => normalizeJsonSelection relation entry.1 entry.2⟩
  else do
    guardThat (decide (field ∈ (queryRelationMetadata relation).fields)) (field ++ " is not a field of " ++ relation.name)
    match enabled with
    | .bool true => return ⟨[field], []⟩
    | .bool false => return ⟨[], []⟩
    | _ => .error ("select." ++ field ++ " must be a boolean")

def normalizeSelection (relation : QueryRelation) (value : QueryArgument) : Normalized NormalizedSelection := do
  let selection ← value.plainEntries "select"
  let selected ← selection.mapM fun entry => normalizeSelected relation entry.1 entry.2
  let fields := selected.flatMap (·.fields)
  let json := selected.flatMap (·.json)
  guardThat (!(fields.isEmpty && json.isEmpty)) "select must include at least one field"
  return ⟨fields, json⟩

def optionalSelection (relation : QueryRelation) : QueryArgument → Normalized (Option NormalizedSelection) :=
  unlessUndefined none fun value => do return some (← normalizeSelection relation value)

/-! ## Pages, orders and parties -/

def assertPageValue (name : String) : Option Int → Normalized Nat
  | some integer => if integer < 0 then .error (name ++ " must be a non-negative integer") else .ok integer.toNat
  | none => .error (name ++ " must be a non-negative integer")

structure QueryPage where
  skip : Nat
  take : Option Nat

def normalizePage (fields : List (String × QueryArgument)) : Normalized QueryPage :=
  match (fields.lookup "skip").getD (.number (some 0)), property fields "take" with
  | .number skip, .undefined => do return ⟨← assertPageValue "skip" skip, none⟩
  | .number skip, .number take => do
      let skip ← assertPageValue "skip" skip
      return ⟨skip, some (← assertPageValue "take" take)⟩
  | _, _ => .error "skip and take must be numbers"

def normalizeParties (relation : QueryRelation) (value : QueryArgument) : Normalized (Option (List String)) :=
  if value.isUndefined then .ok none
  else if relation ≠ .contracts then .error "parties is only supported for contracts"
  else value.texts.elim (.error "parties must be an array of strings") fun parties =>
    .ok (some (sortBy compareText parties.eraseDups))

def optionalPredicate (relation : QueryRelation) : QueryArgument → Normalized (Option QueryPredicate) :=
  unlessUndefined none fun value => normalizePredicate relation value.input

/-! ## Includes -/

/-- The properties of an include option. -/
def includeProperties : Cardinality → List String
  | .many => ["where", "select", "include", "orderBy", "skip", "take"]
  | .one => ["where", "select", "include", "orderBy"]

def includedPage (cardinality : Cardinality) (settings : List (String × QueryArgument)) : Normalized QueryPage :=
  match cardinality with
  | .many => normalizePage settings
  | .one => .ok ⟨0, none⟩

def takeError (edge : QueryEdge) : String := edge.name ++ " is a to-many relation and requires a non-negative take"

mutual

def normalizeIncludes (relation : QueryRelation) : QueryArgument → Normalized (List NormalizedInclude)
  | .object true fields => normalizeIncludeEntries relation fields
  | value => .error (value.objectError "include")

def normalizeIncludeEntries (relation : QueryRelation) : List (String × QueryArgument) → Normalized (List NormalizedInclude)
  | [] => .ok []
  | (edgeName, option) :: rest => do
      let edge ← (relationEdge relation edgeName).elim (.error (edgeName ++ " is not a relation of " ++ relation.name)) .ok
      let first ← normalizeInclude edge option
      return first :: (← normalizeIncludeEntries relation rest)

def normalizeInclude (edge : QueryEdge) : QueryArgument → Normalized NormalizedInclude
  | .bool true => do
      guardThat (decide (edge.cardinality = .one)) (takeError edge)
      return ⟨edge, none, none, [], [], 0, none⟩
  | .object true settings => do
      assertKnown settings (includeProperties edge.cardinality) (edge.name ++ " include option")
      let page ← includedPage edge.cardinality settings
      guardThat (decide (edge.cardinality = .one) || page.take.isSome) (takeError edge)
      let predicate ← optionalPredicate edge.target (property settings "where")
      let select ← optionalSelection edge.target (property settings "select")
      let includes ← nestedIncludes edge.target settings
      let orderBy := property settings "orderBy"
      let orderBy ← normalizeOrderBy edge.target orderBy.input (decide (edge.cardinality = .many) || !orderBy.isUndefined)
      return ⟨edge, predicate, select, includes, orderBy, page.skip, page.take⟩
  | value => .error (value.objectError (edge.name ++ " include option"))

/-- The includes under the property `include`, if there is one. -/
def nestedIncludes (relation : QueryRelation) : List (String × QueryArgument) → Normalized (List NormalizedInclude)
  | [] => .ok []
  | (key, value) :: rest =>
      if key = "include" then if value.isUndefined then .ok [] else normalizeIncludes relation value
      else nestedIncludes relation rest

end

/-! ## Aggregates and groups -/

/-- The fields that an aggregate of the given name is asked for, each once. -/
def aggregatedFields (relation : QueryRelation) (fields : List String) (name : String) (value : QueryArgument) :
    Normalized (List String) :=
  if value.isUndefined then .ok []
  else
    match value.texts with
    | none => .error (name ++ " must contain fields of " ++ relation.name)
    | some selected => do
        guardThat (selected.all fun field => decide (field ∈ fields)) (name ++ " must contain fields of " ++ relation.name)
        return selected.eraseDups

def normalizeAggregates (relation : QueryRelation) (value : List (String × QueryArgument)) (numericOnly : Bool) :
    Normalized NormalizedAggregateSelection := do
  let metadata := queryRelationMetadata relation
  let fields := if numericOnly then metadata.numericFields else metadata.fields
  assertKnown value ["count", "min", "max", "sum"] "aggregate"
  let count ← (match property value "count" with
    | .undefined => .ok false
    | .bool true => .ok true
    | _ => .error "aggregate.count must be true" : Normalized Bool)
  let min ← aggregatedFields relation fields "min" (property value "min")
  let max ← aggregatedFields relation fields "max" (property value "max")
  let sum ← aggregatedFields relation fields "sum" (property value "sum")
  guardThat (count || !min.isEmpty || !max.isEmpty || !sum.isEmpty) "aggregate requires at least one selection"
  return ⟨count, min, max, sum⟩

def timeBucket : QueryArgument → Option TimeBucket
  | .text "hour" => some .hour
  | .text "day" => some .day
  | .text "week" => some .week
  | .text "month" => some .month
  | _ => none

/-- `bucket`. -/
def normalizeBucket (value : QueryArgument) : Normalized TimeBucket := do
  let source ← value.plainEntries "time bucket"
  assertKnown source ["bucket"] "time bucket"
  (timeBucket (property source "bucket")).elim (.error "invalid time bucket") .ok

def normalizeJsonGroup (field : String) (value : QueryArgument) : Normalized NormalizedGroupKey := do
  let projection ← value.plainEntries (field ++ " group key")
  assertKnown projection ["name", "path", "as"] (field ++ " group key")
  match property projection "name" with
  | .text name => do
      guardThat (decide (name ≠ "")) (field ++ " group name must be non-empty")
      let as ← (jsonScalarType (property projection "as")).elim (.error (field ++ " group type is invalid")) .ok
      return .json field name (← jsonPath (field ++ " group path") (property projection "path").input) as
  | _ => .error (field ++ " group name must be non-empty")

/-- A time bucket at the end of a to-one edge. -/
def normalizeRelatedBucket (edge : QueryEdge) (value : QueryArgument) : Normalized NormalizedGroupKey := do
  match ← value.plainEntries "related group key" with
  | [(field, nested)] => do
      guardThat (decide (field ∈ (queryRelationMetadata edge.target).bucketFields)) "group key must use a profiled time bucket"
      return .relatedBucket edge field (← normalizeBucket nested)
  | _ => .error "group key must use a profiled time bucket"

def normalizeGroupKey (relation : QueryRelation) (value : QueryArgument) : Normalized NormalizedGroupKey :=
  let metadata := queryRelationMetadata relation
  match value with
  | .text field => do
      guardThat (decide (field ∈ metadata.groupFields)) (field ++ " is not a group key of " ++ relation.name)
      return .field [field]
  | value => do
      match ← value.plainEntries "group key" with
      | [(field, nested)] =>
          if field ∈ metadata.jsonFields then normalizeJsonGroup field nested
          else if field ∈ metadata.bucketFields then return .bucket field (← normalizeBucket nested)
          else
            match (relationEdge relation field).filter fun edge => decide (edge.cardinality = .one) with
            | some edge => normalizeRelatedBucket edge nested
            | none => .error "group key must be a field, JSON projection, or a to-one time bucket"
      | _ => .error "group key must contain exactly one field"

/-! ## Filters that only active contracts pass -/

def provesActiveScalar (path : List String) (operator : ScalarOperator) (value : QueryValue) : Bool :=
  match path, operator, value with
  | ["active"], .equals, .bool true => true
  | ["archivedAt"], .is, .null | ["archivedEventOffset"], .is, .null => true
  | _, _, _ => false

mutual

def provesActive : QueryPredicate → Bool
  | .scalar path operator value => provesActiveScalar path operator value
  | .and children => someProvesActive children
  | .or children => !children.isEmpty && everyProvesActive children
  | .not _ | .relation _ _ _ => false

def someProvesActive : List QueryPredicate → Bool
  | [] => false
  | child :: rest => provesActive child || someProvesActive rest

def everyProvesActive : List QueryPredicate → Bool
  | [] => true
  | child :: rest => provesActive child && everyProvesActive rest

end

/-- Whether the query is kept to active contracts. -/
def activeOnlyOf (relation : QueryRelation) (predicate : Option QueryPredicate) : Bool :=
  decide (relation = .contracts) && predicate.any provesActive

/-! ## Queries -/

/-- An argument that may be left out. -/
def QueryArgument.orEmpty : QueryArgument → QueryArgument
  | .undefined => .object true []
  | args => args

def normalizeFindMany (relation : QueryRelation) (args : QueryArgument) : Normalized NormalizedFindManyQuery := do
  let source ← args.orEmpty.plainEntries "findMany args"
  assertKnown source ["parties", "where", "select", "include", "orderBy", "skip", "take"] relation.name
  let page ← normalizePage source
  -- A `take` of zero at the top is no limit.
  let take := page.take.filter fun take => decide (take ≠ 0)
  let predicate ← optionalPredicate relation (property source "where")
  let parties ← normalizeParties relation (property source "parties")
  let select ← optionalSelection relation (property source "select")
  let includes ← nestedIncludes relation source
  let orderBy := property source "orderBy"
  let orderBy ← normalizeOrderBy relation orderBy.input
    (decide (relation = .contracts) || !orderBy.isUndefined || decide (0 < page.skip) || take.isSome)
  return {
    relation, parties, predicate, select, includes, orderBy, take
    skip := page.skip
    activeOnly := activeOnlyOf relation predicate }

def assertUniqueEqualityValue (metadata : QueryRelationMetadata) (field : String) (value : QueryArgument) : Normalized Unit := do
  guardThat (decide (field ∈ metadata.fields)) (field ++ " is not a field of a unique key")
  let kind ← scalarKind metadata field
  validateScalarValue ("findUnique.where." ++ field) kind (decide (field ∈ metadata.nullableFields)) value.input

def normalizeFindUnique (relation : QueryRelation) (args : QueryArgument) : Normalized NormalizedFindUniqueQuery := do
  let source ← args.plainEntries "findUnique args"
  assertKnown source ["where", "select", "include"] relation.name
  let condition ← (property source "where").plainEntries "findUnique.where"
  let metadata := queryRelationMetadata relation
  let fields := condition.map Prod.fst
  guardThat (metadata.uniqueKeys.any fun key => decide (key.length = fields.length) && key.all fun field => decide (field ∈ fields))
    ("findUnique.where must contain one declared unique key of " ++ relation.name)
  let children ← condition.mapM fun entry => do
    assertUniqueEqualityValue metadata entry.1 entry.2
    return .scalar [entry.1] .equals (clone entry.2.input)
  let predicate ← required "findUnique.where must not be empty" (combine .and children)
  let select ← optionalSelection relation (property source "select")
  let includes ← nestedIncludes relation source
  return { relation, predicate, select, includes }

def normalizeCount (relation : QueryRelation) (args : QueryArgument) : Normalized NormalizedCountQuery := do
  let source ← args.orEmpty.plainEntries "count args"
  assertKnown source ["parties", "where"] relation.name
  let predicate ← optionalPredicate relation (property source "where")
  let parties ← normalizeParties relation (property source "parties")
  return { relation, parties, predicate, activeOnly := activeOnlyOf relation predicate }

def normalizeAggregate (relation : QueryRelation) (args : QueryArgument) : Normalized NormalizedAggregateQuery := do
  let source ← args.plainEntries "aggregate args"
  assertKnown source ["where", "count", "min", "max", "sum"] relation.name
  let predicate ← optionalPredicate relation (property source "where")
  let asked := ["count", "min", "max", "sum"].map fun name => (name, property source name)
  let aggregates ← normalizeAggregates relation asked false
  return { relation, predicate, aggregates }

def normalizeGroupBy (relation : QueryRelation) (args : QueryArgument) : Normalized NormalizedGroupByQuery := do
  let source ← args.plainEntries "groupBy args"
  assertKnown source ["where", "by", "aggregate"] relation.name
  match property source "by" with
  | .array (key :: rest) => do
      let predicate ← optionalPredicate relation (property source "where")
      let by_ ← (key :: rest).mapM (normalizeGroupKey relation)
      let aggregates ← normalizeAggregates relation (← (property source "aggregate").plainEntries "groupBy.aggregate") true
      return { relation, predicate, by_, aggregates }
  | _ => .error "groupBy.by must be a non-empty list"

inductive QueryKind where
  | findMany | findUnique | count | aggregate | groupBy
  deriving DecidableEq

/-- The normalizer for queries of a kind. -/
def normalizeQuery (kind : QueryKind) (relation : QueryRelation) (args : QueryArgument) : Normalized NormalizedQuery :=
  match kind with
  | .findMany => do return .findMany (← normalizeFindMany relation args)
  | .findUnique => do return .findUnique (← normalizeFindUnique relation args)
  | .count => do return .count (← normalizeCount relation args)
  | .aggregate => do return .aggregate (← normalizeAggregate relation args)
  | .groupBy => do return .groupBy (← normalizeGroupBy relation args)

end CantonSdk.Query.Canonical
