import CantonSdk.Query.Pqs.SqlCompiler

/-!
# Statements for the other relations

What `pqs-relational-sql-compiler` makes of a query on a relation other than contracts, and the statement that the client
sends for a query of any kind. Logical types are read through a view with one row for each public key.
-/

set_option linter.all false

namespace CantonSdk.Query.Pqs

open CantonSdk.Query.Canonical

variable (profile : PqsSchemaProfileV1)

/-- Where the rows of a relation come from. -/
structure RootSource where
  withClause : Option Sql
  relation : Sql

def logicalTypeRootSource (relation : QueryRelation) : Except String RootSource :=
  if relation ≠ .contractTypes ∧ relation ≠ .exerciseTypes then .ok ⟨none, profile.relation relation⟩
  else do
    let publicKey ← compileCanonicalPhysicalField profile relation "pk" (.named (.code (code "\"physical_type\"")))
    return ⟨some (.template [(code "with \"logical_type_root\" as (select distinct on (", publicKey),
        (code ") \"physical_type\".* from ", profile.relation relation), (code " \"physical_type\" order by ", publicKey)]
        (code ", \"physical_type\".\"pk\" asc)")),
      .code (code "\"logical_type_root\"")⟩

/-- The clauses of a statement, behind the definition of its view if it has one. -/
def statement (source : RootSource) (clauses : List Sql) : Sql := .blanks (source.withClause.toList ++ clauses)

/-- `from` with the relation that the rows come from. -/
def fromSource (source : RootSource) : Sql := .template [(.source, source.relation)] .nothing

/-- The selected fields with their expressions. -/
def selectedCanonicalFields (relation : QueryRelation) (select : Option NormalizedSelection) :
    Except String (List Sql) := do
  let names := (select.map (·.fields)).getD ((pqsFields relation).map Prod.fst)
  let _ ← names.mapM (pqsColumn relation)
  if names.isEmpty && (((select.map (·.json)).getD []).isEmpty) then throw "select must include at least one field"
  names.mapM fun name => do
    let expression ← compileCanonicalPhysicalField profile relation name .none
    return named expression (.identifier name)

def compileCanonicalJsonSelections (relation : QueryRelation) : List NormalizedJsonSelection → Compile (List Sql)
  | [] => return []
  | projection :: rest => do
      if projection.field ∉ (queryRelationMetadata relation).jsonFields then
        throw (projection.field ++ " is not a JSON field of " ++ pqsRelationName relation)
      let base ← compileCanonicalPhysicalField profile relation projection.field .none
      let text ← jsonText base projection.path
      return named (jsonScalar text projection.as) (.givenIdentifier projection.name) ::
        (← compileCanonicalJsonSelections relation rest)

/-- `compileCanonicalOrderBy` of the relational compiler, which checks its fields. -/
def compileRelationOrderBy (relation : QueryRelation) (orderBy : List NormalizedOrder) : Except String (List Sql) :=
  if orderBy.isEmpty then .ok []
  else do
    let items ← orderBy.mapM fun order => do
      let field ← compileCanonicalPhysicalField profile relation (order.path.head?.getD "undefined") .none
      return directed field order.direction
    return [.template [(.ordering, .commas items)] .nothing]

def relationConditions (relation : QueryRelation) (tableAlias : SqlAlias) (predicate : Option QueryPredicate) :
    Compile (List Sql) := do
  match predicate with
  | none => return []
  | some predicate =>
      return [.template [(.condition, ← compileCanonicalPredicate profile relation tableAlias predicate)] .nothing]

def limitClauses (take : Option Nat) : Compile (List Sql) :=
  if take.isNone then return [] else return [← limitClause take]

def offsetClauses (skip : Nat) : Compile (List Sql) :=
  if skip = 0 then return [] else return [← offsetClause skip]

def compilePqsRelationFindMany (query : NormalizedFindManyQuery) : Compile Sql := do
  let source ← logicalTypeRootSource profile query.relation
  let fields ← selectedCanonicalFields profile query.relation query.select
  let conditions ← relationConditions profile query.relation .none query.predicate
  let orderBy ← compileRelationOrderBy profile query.relation query.orderBy
  let limit ← limitClauses query.take
  let offset ← offsetClauses query.skip
  let included ← compileCanonicalPhysicalIncludes profile query.relation (.named source.relation) query.includes
  let json ← compileCanonicalJsonSelections profile query.relation ((query.select.map (·.json)).getD [])
  let selected := fields ++ json ++ included.map (·.selection)
  return statement source (.template [(.selecting, .commas selected)] .nothing
    :: fromSource source :: (conditions ++ orderBy ++ limit ++ offset))

def compilePqsRelationCount (query : NormalizedCountQuery) : Compile Sql := do
  let source ← logicalTypeRootSource profile query.relation
  let conditions ← relationConditions profile query.relation .none query.predicate
  return statement source (.code (code "select count(*)::text as count") :: fromSource source :: conditions)

/-- The aggregates of a relation, whose fields must be numeric. -/
def relationAggregates (relation : QueryRelation) (tableAlias : SqlAlias) (aggregates : NormalizedAggregateSelection) :
    Except String (List Sql) := do
  let requested ← (requestedAggregates aggregates).mapM fun entry => do
    if entry.2 ∉ (queryRelationMetadata relation).numericFields then
      throw (entry.2 ++ " is not a numeric aggregate field of " ++ pqsRelationName relation)
    return aggregated entry.1 (← compileCanonicalPhysicalField profile relation entry.2 tableAlias) entry.2
  return countSelection aggregates ++ requested

def compilePqsRelationAggregate (query : NormalizedAggregateQuery) : Compile Sql := do
  let source ← logicalTypeRootSource profile query.relation
  let selected ← relationAggregates profile query.relation .none query.aggregates
  if selected.isEmpty then throw "aggregate must request at least one result"
  let conditions ← relationConditions profile query.relation .none query.predicate
  return statement source
    (.template [(.selecting, .commas selected)] .nothing :: fromSource source :: conditions)

/-! ## Groups -/

/-- A group key with the join that it needs. -/
structure RelationGroupKey where
  join : List Sql
  key : CompiledGroupKey

/-- `date_trunc` of a time. -/
def truncated (bucket : TimeBucket) (expression : Sql) : Sql :=
  .template [(code "date_trunc(", .string bucket.name), (.comma, expression)] .closing

def compileRelationGroupKey (relation : QueryRelation) (root : Sql) : NormalizedGroupKey → Compile RelationGroupKey
  | .field path => do
      let name := path.head?.getD "undefined"
      let column ← pqsColumn relation name
      if name ∈ (queryRelationMetadata relation).arrayFields then
        let expression : Sql := .template [(.nothing, .identifier name)] (code ".value")
        return ⟨[.template [(code "cross join lateral unnest(", root), (.dot, .identifier column),
          (code ") as ", .identifier name)] (code "(value)")], expression, named expression (.identifier name)⟩
      else
        let expression ← compileCanonicalPhysicalField profile relation name (.named root)
        return ⟨[], expression, named expression (.identifier name)⟩
  | .json field name path as => do
      let base ← compileCanonicalPhysicalField profile relation field (.named root)
      let text ← jsonText base path
      return ⟨[], jsonGroupScalar text as, named (jsonGroupScalar text as) (.givenIdentifier name)⟩
  | .bucket field bucket => do
      let expression ← compileCanonicalPhysicalField profile relation field (.named root)
      return ⟨[], truncated bucket expression,
        named (truncated bucket expression) (.identifier (field ++ "_" ++ bucket.name))⟩
  | .relatedBucket edge field bucket => do
      if edge.source ≠ relation ∨ edge.cardinality ≠ .one then throw "group key must follow a profiled to-one edge"
      let columns := pqsEdgeColumns edge
      let expression ← compileCanonicalPhysicalField profile edge.target field (.named (edgeAlias edge))
      return ⟨[.template [(code "join ", profile.relation edge.target), (.blank, edgeAlias edge),
          (code " on ", edgeAlias edge), (.dot, .identifier columns.targetColumn), (.equation, root),
          (.dot, .identifier columns.sourceColumn)] .nothing],
        truncated bucket expression, named (truncated bucket expression)
          (.identifier (edge.name ++ "_" ++ field ++ "_" ++ bucket.name))⟩

def compileRelationGroupKeys (relation : QueryRelation) (root : Sql) :
    List NormalizedGroupKey → Compile (List RelationGroupKey)
  | [] => return []
  | key :: rest => do
      let first ← compileRelationGroupKey profile relation root key
      return first :: (← compileRelationGroupKeys relation root rest)

/-- The alias of the rows that are grouped. -/
def groupRoot (relation : QueryRelation) : Sql :=
  if relation = .events then .code (code "\"event\"") else .code (code "\"root\"")

def compilePqsRelationGroupBy (query : NormalizedGroupByQuery) : Compile Sql := do
  if nothingGrouped query then throw "groupBy requires a key and aggregate"
  let source ← logicalTypeRootSource profile query.relation
  let root := groupRoot query.relation
  let conditions ← relationConditions profile query.relation (.named root) query.predicate
  let keys ← compileRelationGroupKeys profile query.relation root query.by_
  let aggregates ← relationAggregates profile query.relation (.named root) query.aggregates
  let selected := keys.map (·.key.selection) ++ aggregates
  return statement source (.template [(.selecting, .commas selected)] .nothing
    :: .template [(.nothing, fromSource source), (.blank, root)] .nothing
    :: (keys.flatMap (·.join) ++ conditions ++ [groupByClause (keys.map (·.key))]))

/-! ## Queries of any kind -/

def normalizedUniqueAsFindMany (query : NormalizedFindUniqueQuery) : NormalizedFindManyQuery where
  relation := query.relation
  parties := none
  predicate := some query.predicate
  select := query.select
  includes := query.includes
  orderBy := if query.relation = .contracts then [⟨["contractId"], .asc⟩] else []
  skip := 0
  take := some 1
  activeOnly := false

/-- The statement that `PqsQueryClient` sends for a query. -/
def compileQuery (query : NormalizedQuery) : Compile Sql :=
  let contracts := query.relation = .contracts
  match query with
  | .findMany query => if contracts then compileContractFindMany profile query else compilePqsRelationFindMany profile query
  | .findUnique query =>
      if contracts then compileContractFindMany profile (normalizedUniqueAsFindMany query)
      else compilePqsRelationFindMany profile (normalizedUniqueAsFindMany query)
  | .count query => if contracts then compileContractCount profile query else compilePqsRelationCount profile query
  | .aggregate query =>
      if contracts then compileContractAggregate profile query else compilePqsRelationAggregate profile query
  | .groupBy query => if contracts then compileContractGroupBy profile query else compilePqsRelationGroupBy profile query

end CantonSdk.Query.Pqs
