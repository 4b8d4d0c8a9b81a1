import CantonSdk.Query.Canonical.Schema

/-!
# Normalized queries

What `query-normalizer` hands to a source. Values are as the normalizer clones them: a date is its ISO
text and bytes are an array of numbers.
-/

set_option linter.all false

namespace CantonSdk.Query.Canonical

inductive ScalarOperator where
  | equals | in_ | is | isNot | lt | lte | gt | gte | like | ilike | has
  deriving DecidableEq

inductive QueryOrderDirection where
  | asc | desc
  deriving DecidableEq

inductive Quantifier where
  | one | some | none | every
  deriving DecidableEq

inductive QueryPredicate where
  | and (children : List QueryPredicate)
  | or (children : List QueryPredicate)
  | not (child : QueryPredicate)
  | scalar (path : List String) (operator : ScalarOperator) (value : QueryValue)
  | relation (edge : QueryEdge) (quantifier : Quantifier) (predicate : QueryPredicate)

structure NormalizedOrder where
  path : List String
  direction : QueryOrderDirection

inductive JsonScalarType where
  | text | numeric | boolean | timestamp
  deriving DecidableEq

structure NormalizedJsonSelection where
  name : String
  field : String
  path : List String
  as : JsonScalarType

structure NormalizedSelection where
  fields : List String
  json : List NormalizedJsonSelection

/-- The relation and the cardinality of an include are those of its edge. -/
structure NormalizedInclude where
  edge : QueryEdge
  predicate : Option QueryPredicate
  select : Option NormalizedSelection
  includes : List NormalizedInclude
  orderBy : List NormalizedOrder
  skip : Nat
  take : Option Nat

structure NormalizedFindManyQuery where
  relation : QueryRelation
  parties : Option (List String)
  predicate : Option QueryPredicate
  select : Option NormalizedSelection
  includes : List NormalizedInclude
  orderBy : List NormalizedOrder
  skip : Nat
  take : Option Nat
  activeOnly : Bool

structure NormalizedFindUniqueQuery where
  relation : QueryRelation
  predicate : QueryPredicate
  select : Option NormalizedSelection
  includes : List NormalizedInclude

structure NormalizedCountQuery where
  relation : QueryRelation
  parties : Option (List String)
  predicate : Option QueryPredicate
  activeOnly : Bool

structure NormalizedAggregateSelection where
  count : Bool
  min : List String
  max : List String
  sum : List String

structure NormalizedAggregateQuery where
  relation : QueryRelation
  predicate : Option QueryPredicate
  aggregates : NormalizedAggregateSelection

inductive TimeBucket where
  | hour | day | week | month
  deriving DecidableEq

def TimeBucket.name : TimeBucket → String
  | hour => "hour"
  | day => "day"
  | week => "week"
  | month => "month"

inductive NormalizedGroupKey where
  | field (path : List String)
  | json (field name : String) (path : List String) (as : JsonScalarType)
  /-- A date field of the row. -/
  | bucket (field : String) (bucket : TimeBucket)
  /-- A date field of the row at the end of a to-one edge. -/
  | relatedBucket (edge : QueryEdge) (field : String) (bucket : TimeBucket)

structure NormalizedGroupByQuery where
  relation : QueryRelation
  predicate : Option QueryPredicate
  by_ : List NormalizedGroupKey
  aggregates : NormalizedAggregateSelection

inductive NormalizedQuery where
  | findMany (query : NormalizedFindManyQuery)
  | findUnique (query : NormalizedFindUniqueQuery)
  | count (query : NormalizedCountQuery)
  | aggregate (query : NormalizedAggregateQuery)
  | groupBy (query : NormalizedGroupByQuery)

namespace NormalizedQuery

def relation : NormalizedQuery → QueryRelation
  | findMany query => query.relation
  | findUnique query => query.relation
  | count query => query.relation
  | aggregate query => query.relation
  | groupBy query => query.relation

def predicate : NormalizedQuery → Option QueryPredicate
  | findMany query => query.predicate
  | findUnique query => some query.predicate
  | count query => query.predicate
  | aggregate query => query.predicate
  | groupBy query => query.predicate

end NormalizedQuery

end CantonSdk.Query.Canonical
