import CantonSdk.Query.Canonical.Comparison
import CantonSdk.Query.Canonical.Dataset

/-!
# The in-memory evaluator

`InMemoryQueryEvaluator` runs a normalized query on a compiled dataset. Rows are passed around by their
positions; a row is looked up where its fields are read.
-/

set_option linter.all false

namespace CantonSdk.Query.Canonical

open CantonSdk.Base

/-- The object of a result: its properties in the order in which they were first set. -/
abbrev QueryResult := KeyedMap String QueryValue

def QueryResult.toQueryValue (result : QueryResult) : QueryValue := .object result.entries

/-- `list.slice(skip, take === undefined ? undefined : skip + take)`. -/
def slice {α : Type} (list : List α) (skip : Nat) (take : Option Nat) : List α :=
  match take with
  | none => list.drop skip
  | some take => (list.drop skip).take take

namespace CompiledDataset

def row (dataset : CompiledDataset) (relation : QueryRelation) (index : Nat) : QueryRow :=
  (dataset.rows relation).getD index []

end CompiledDataset

/-- What a quantifier makes of the results on the related rows. -/
def Quantifier.holds (quantifier : Quantifier) (results : List Bool) : Bool :=
  match quantifier with
  | .one => results.head?.getD false
  | .some => results.any id
  | .none => !results.any id
  | .every => results.all id

section Evaluator

variable (runtime : JsRuntime) (dataset : CompiledDataset)

/-! ### Predicates -/

mutual

/-- `matches`. -/
def matchesPredicate (relation : QueryRelation) (index : Nat) : QueryPredicate → Checked Bool
  | .and children => matchesEvery relation index children
  | .or children => matchesSome relation index children
  | .not child => do return !(← matchesPredicate relation index child)
  | .scalar path operator value =>
      .ok (matchesScalar runtime ((dataset.row relation index).atPath path) operator value)
  | .relation edge quantifier predicate =>
      if edge.source ≠ relation then
        .error (.plain ("Unknown " ++ relation.name ++ "." ++ edge.name ++ " edge"))
      else do
        let related ← relatedQueryRows dataset edge index
        let results ← related.mapM fun target => matchesPredicate edge.target target predicate
        return quantifier.holds results

/-- `children.every`, which stops at the first child that fails. -/
def matchesEvery (relation : QueryRelation) (index : Nat) : List QueryPredicate → Checked Bool
  | [] => .ok true
  | child :: children => do
      if ← matchesPredicate relation index child then matchesEvery relation index children
      else return false

/-- `children.some`, which stops at the first child that holds. -/
def matchesSome (relation : QueryRelation) (index : Nat) : List QueryPredicate → Checked Bool
  | [] => .ok false
  | child :: children => do
      if ← matchesPredicate relation index child then return true
      else matchesSome relation index children

end

/-- A predicate that may not be there. -/
def matchesOptional (relation : QueryRelation) (predicate : Option QueryPredicate) (index : Nat) :
    Checked Bool :=
  predicate.elim (.ok true) (matchesPredicate runtime dataset relation index)

/-- Whether a party of the query is a witness. -/
def hasParty (row : QueryRow) (parties : List String) : Bool :=
  match row.atPath ["witnesses"] with
  | some (.array witnesses) => witnesses.any fun party => decide (jsString runtime party ∈ parties)
  | _ => false

def keepsRow (relation : QueryRelation) (predicate : Option QueryPredicate)
    (parties : Option (List String)) (activeOnly : Bool) (index : Nat) : Checked Bool :=
  let row := dataset.row relation index
  if activeOnly && decide (row.atPath ["active"] ≠ some (.bool true)) then .ok false
  else if parties.any fun parties => !hasParty runtime row parties then .ok false
  else matchesOptional runtime dataset relation predicate index

/-- `filtered`, as positions. -/
def filtered (relation : QueryRelation) (predicate : Option QueryPredicate)
    (parties : Option (List String)) (activeOnly : Bool) : Checked (List Nat) :=
  filterChecked (keepsRow runtime dataset relation predicate parties activeOnly)
    (List.range (dataset.rows relation).length)

/-! ### Order -/

/-- The comparator of `order` on rows; NaN counts as equal and ends the comparison. -/
def compareRows (orderBy : List NormalizedOrder) (left right : QueryRow) : Ordering :=
  match orderBy with
  | [] => .eq
  | order :: rest =>
      match postgresCompare runtime (left.atPath order.path) (right.atPath order.path)
        order.direction with
      | some .eq => compareRows rest left right
      | some ordering => ordering
      | none => .eq

/-- `order`: a stable sort, so rows that compare as equal keep their order. -/
def orderRows (relation : QueryRelation) (orderBy : List NormalizedOrder) (rows : List Nat) : List Nat :=
  sortBy (compareKey (compareRows runtime orderBy) (dataset.row relation)) rows

/-! ### Shape -/

/-- The selected fields of a row. -/
def shapeFields (row : QueryRow) (selection : Option NormalizedSelection) : QueryResult :=
  let fields := (selection.map NormalizedSelection.fields).getD (row.map Prod.fst)
  .ofEntries (fields.filterMap fun field => (row.atPath [field]).map fun value => (field, value))

/-- The JSON projections of a row, set one after another. -/
def shapeJson (row : QueryRow) (selection : Option NormalizedSelection) (result : QueryResult) :
    QueryResult :=
  ((selection.map NormalizedSelection.json).getD []).foldl (fun result projection =>
    result.set projection.name
      (project runtime (row.atPath (projection.field :: projection.path)) projection.as)) result

/-- What an include sets: the bounded rows, or the first of them. -/
def includedValue (cardinality : Cardinality) (shaped : List QueryResult) : QueryValue :=
  match cardinality with
  | .many => .array (shaped.map QueryResult.toQueryValue)
  | .one => (shaped.head?.map QueryResult.toQueryValue).getD .null

mutual

/-- The loop of `shape` over the includes. -/
def shapeIncludes (relation : QueryRelation) (index : Nat) (result : QueryResult) :
    List NormalizedInclude → Checked QueryResult
  | [] => .ok result
  | include_ :: rest => do
      let value ← shapeInclude relation index include_
      shapeIncludes relation index (result.set include_.edge.name value) rest

def shapeInclude (relation : QueryRelation) (index : Nat) : NormalizedInclude → Checked QueryValue
  | ⟨edge, predicate, select, includes, orderBy, skip, take⟩ =>
      if edge.source ≠ relation then
        .error (.plain ("Missing deterministic lookup for " ++ relation.name ++ "." ++ edge.name))
      else do
        let related ← relatedQueryRows dataset edge index
        let targets ← filterChecked (matchesOptional runtime dataset edge.target predicate) related
        let bounded := slice (orderRows runtime dataset edge.target orderBy targets) skip take
        let shaped ← bounded.mapM fun target =>
          let row := dataset.row edge.target target
          shapeIncludes edge.target target (shapeJson runtime row select (shapeFields row select))
            includes
        return includedValue edge.cardinality shaped

end

/-- `shape`. -/
def shape (relation : QueryRelation) (selection : Option NormalizedSelection)
    (includes : List NormalizedInclude) (index : Nat) : Checked QueryResult :=
  let row := dataset.row relation index
  shapeIncludes runtime dataset relation index
    (shapeJson runtime row selection (shapeFields row selection)) includes

/-! ### Queries -/

/-- `findMany`. -/
def findMany (query : NormalizedFindManyQuery) : Checked (List QueryResult) := do
  let kept ← filtered runtime dataset query.relation query.predicate query.parties query.activeOnly
  let rows := slice (orderRows runtime dataset query.relation query.orderBy kept) query.skip query.take
  rows.mapM (shape runtime dataset query.relation query.select query.includes)

/-- The `findMany` that a `findUnique` runs. -/
def NormalizedFindUniqueQuery.toFindMany (query : NormalizedFindUniqueQuery) :
    NormalizedFindManyQuery where
  relation := query.relation
  parties := none
  predicate := some query.predicate
  select := query.select
  includes := query.includes
  orderBy := []
  skip := 0
  take := some 1
  activeOnly := false

inductive AggregateOperation where
  | min | max | sum
  deriving DecidableEq

namespace AggregateOperation

def name : AggregateOperation → String
  | min => "min"
  | max => "max"
  | sum => "sum"

def fields (operation : AggregateOperation) (aggregates : NormalizedAggregateSelection) : List String :=
  match operation with
  | min => aggregates.min
  | max => aggregates.max
  | sum => aggregates.sum

def combine (operation : AggregateOperation) (left right : Int) : Int :=
  match operation with
  | min => if right < left then right else left
  | max => if left < right then right else left
  | sum => left + right

end AggregateOperation

def aggregateOperations : List AggregateOperation := [.min, .max, .sum]

/-- The function `aggregate`; `BigInt` refuses a text that is not an integer. -/
def aggregateValues (operation : AggregateOperation) (values : List (Option QueryValue)) :
    Checked QueryValue := do
  let numbers ← (values.filterMap fun value => if present value then value else none).mapM fun value =>
    (stringToBigInt (jsString runtime value)).elim
      (.error (.plain ("Cannot convert " ++ jsString runtime value ++ " to a BigInt"))) .ok
  match numbers with
  | [] => return .null
  | first :: rest => return .text (toString (rest.foldl operation.combine first))

/-- The aggregate of one field over rows. -/
def aggregateField (relation : QueryRelation) (rows : List Nat) (operation : AggregateOperation)
    (field : String) : Checked QueryValue :=
  aggregateValues runtime operation (rows.map fun index => (dataset.row relation index).atPath [field])

/-- The method `aggregate`. -/
def aggregateRows (relation : QueryRelation) (rows : List Nat)
    (aggregates : NormalizedAggregateSelection) : Checked QueryResult := do
  let counted : QueryResult :=
    if aggregates.count then .ofEntries [("count", .number rows.length)] else .empty
  aggregateOperations.foldlM (fun result operation => do
    let fields := operation.fields aggregates
    if fields.isEmpty then return result
    else
      checkAll (fun field => guardThat (decide (field ∈ (queryRelationMetadata relation).numericFields))
        (.plain (field ++ " is not a numeric aggregate field of " ++ relation.name))) fields
      let values ← fields.mapM fun field => do
        return (field, ← aggregateField runtime dataset relation rows operation field)
      return result.set operation.name (KeyedMap.ofEntries values |> QueryResult.toQueryValue)) counted

/-- `groupValues`. -/
def groupValues (relation : QueryRelation) (index : Nat) : NormalizedGroupKey →
    Checked (List QueryValue)
  | .field path =>
      match (dataset.row relation index).atPath path with
      | some (.array items) => .ok items
      | value => .ok [value.getD .null]
  | .json field _ path as =>
      .ok [project runtime ((dataset.row relation index).atPath (field :: path)) as]
  | .bucket field unit => .ok [bucket runtime ((dataset.row relation index).atPath [field]) unit]
  | .relatedBucket edge field unit =>
      if edge.source ≠ relation then
        .error (.plain ("Missing deterministic lookup for " ++ relation.name ++ "." ++ edge.name))
      else do
        let related ← relatedQueryRows dataset edge index
        return [bucket runtime
          (related.head?.bind fun target => (dataset.row edge.target target).atPath [field]) unit]

/-- `groupName`. -/
def groupName : NormalizedGroupKey → String
  | .field path => "_".intercalate path
  | .json _ name _ _ => name
  | .bucket field unit => field ++ "_" ++ unit.name
  | .relatedBucket edge field unit => edge.name ++ "_" ++ field ++ "_" ++ unit.name

/-- `cartesian`. -/
def cartesian {α : Type} (parts : List (List α)) : List (List α) :=
  parts.foldl (fun all part => all.flatMap fun front => part.map fun value => front ++ [value]) [[]]

/-- The keys of the groups that a row is in. -/
def groupKeys (query : NormalizedGroupByQuery) (index : Nat) : Checked (List (List QueryValue)) := do
  let variants ← query.by_.mapM (groupValues runtime dataset query.relation index)
  return cartesian variants

/-- `JSON.stringify(keys.map(keyIdentity))`. -/
def groupIdentity (keys : List QueryValue) : String := stringify (.array keys)

/-- One group as a result. -/
def groupResult (query : NormalizedGroupByQuery) (keys : List QueryValue) (rows : List Nat) :
    Checked QueryResult := do
  let named : QueryResult := .ofEntries ((query.by_.map groupName).zip keys)
  let counted := if query.aggregates.count then named.set "count" (.number rows.length) else named
  aggregateOperations.foldlM (fun result operation =>
    (operation.fields query.aggregates).foldlM (fun result field => do
      let value ← aggregateField runtime dataset query.relation rows operation field
      return result.set (operation.name ++ "_" ++ field) value) result) counted

/-- `groupBy`. -/
def groupBy (query : NormalizedGroupByQuery) : Checked (List QueryResult) := do
  let kept ← filtered runtime dataset query.relation query.predicate none false
  let keyed ← kept.mapM fun index => do
    let keys ← groupKeys runtime dataset query index
    return keys.map fun key => (key, index)
  let groups := KeyedMap.groupBy (fun entry => groupIdentity entry.1) keyed.flatten
  groups.values.mapM fun group =>
    groupResult runtime dataset query ((group.head?.map Prod.fst).getD []) (group.map Prod.snd)

/-- `execute`; none is undefined. -/
def execute : NormalizedQuery → Checked (Option QueryValue)
  | .findMany query => do
      let results ← findMany runtime dataset query
      return some (.array (results.map QueryResult.toQueryValue))
  | .findUnique query => do
      let results ← findMany runtime dataset query.toFindMany
      return results.head?.map QueryResult.toQueryValue
  | .count query => do
      let kept ← filtered runtime dataset query.relation query.predicate query.parties query.activeOnly
      return some (.number kept.length)
  | .aggregate query => do
      let kept ← filtered runtime dataset query.relation query.predicate none false
      return some (← aggregateRows runtime dataset query.relation kept query.aggregates).toQueryValue
  | .groupBy query => do
      let results ← groupBy runtime dataset query
      return some (.array (results.map QueryResult.toQueryValue))

end Evaluator

end CantonSdk.Query.Canonical
