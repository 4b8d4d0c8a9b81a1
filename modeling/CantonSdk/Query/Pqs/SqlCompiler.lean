import CantonSdk.Query.Canonical.Ast
import CantonSdk.Query.Pqs.SchemaProfile

/-!
# From normalized queries to statements

What `pqs-sql-compiler` makes of a normalized query. A compiler pushes the values of a query to a list and writes a
placeholder for each; the text grows from the fragments, which need not be in the order of the values.
-/

set_option linter.all false

namespace CantonSdk.Query.Pqs

open CantonSdk.Query.Canonical

/-- A value that is bound to a placeholder. -/
inductive SqlValue where
  | value (value : QueryValue)
  | texts (texts : List String)
  | count (count : Option Nat)

/-- Compiling pushes values, and may throw. -/
abbrev Compile := StateT (List SqlValue) (Except String)

/-- `addValue`. -/
def add (value : SqlValue) : Compile Sql := do
  let values ← get
  set (values ++ [value])
  return .placeholder (values.length + 1)

/-! ## Identities in SQL -/

/-- The digits of the bytes, three for each. -/
def encodedIdentity : Sql :=
  .template
    [(code "('1' || coalesce((select string_agg(lpad(get_byte(canonical_identity_bytes, ",
      .code (code "canonical_identity_byte")),
      (code ")::text, 3, '0'), '' order by canonical_identity_byte) from generate_series(0, ",
        .code (code "octet_length(canonical_identity_bytes) - 1"))]
    (code ") as canonical_identity_byte), ''))::numeric")

def compileCanonicalPublicNumericIdentitySql (text : Sql) : Sql :=
  .template
    [(code "(select case when octet_length(canonical_identity_bytes) <= 43690 then ", encodedIdentity),
      (code " else ", .code (code "('1' || repeat('0', octet_length(canonical_identity_bytes) * 3))::numeric")),
      (code " end from (select convert_to((", text)]
    (code ")::text, 'UTF8') as canonical_identity_bytes) canonical_identity)")

def compileCanonicalPublicNumericIdentityPartsSql (parts : List Sql) : Sql :=
  .template [(code "concat(", .commas (parts.flatMap fun part =>
    [.template [(code "octet_length(convert_to((", part)] (code ")::text, 'UTF8'))"), .code (code "':'"),
      .template [(code "(", part)] (code ")::text")]))] .closing

/-! ## Columns -/

/-- What the columns of a table are qualified with. -/
inductive SqlAlias where
  | none
  | contractRow
  | named (tableAlias : Sql)

def qualified (tableAlias : SqlAlias) (column : String) : Sql :=
  match tableAlias with
  | .none => .identifier column
  | .contractRow => .template [(code "contract_row.", .identifier column)] .nothing
  | .named tableAlias => .template [(.nothing, tableAlias), (.dot, .identifier column)] .nothing

/-- A column of contracts, which stands without quotes behind `contract_row`. -/
def logicalQualified (tableAlias : SqlAlias) (column : String) (unquoted : SqlCode) : Sql :=
  match tableAlias with
  | .contractRow => .code unquoted
  | _ => qualified tableAlias column

section Profile

variable (profile : PqsSchemaProfileV1)

def eventIdExpression (physical : Sql) : Sql :=
  .template [(code "(to_jsonb(", physical), (code ")->>'offset') || ':' || (to_jsonb(", physical)] (code ")->>'node_id')")

def transactionOffsetExpression (physicalIx : Sql) : Sql :=
  .template [(code "(select \"canonical_transaction\".\"offset\" from ", profile.relation .transactions),
    (code " \"canonical_transaction\" where \"canonical_transaction\".\"ix\" = ", physicalIx)] .closing

def eventPublicKeyExpression (physicalPk : Sql) : Sql :=
  let eventId := eventIdExpression (.code (code "\"canonical_event\".\"event_id\""))
  .template [(code "(select ", compileCanonicalPublicNumericIdentitySql eventId), (code " from ", profile.relation .events),
    (code " \"canonical_event\" where \"canonical_event\".\"pk\" = ", physicalPk)] .closing

def packagePublicKeyExpression (physicalPk : Sql) : Sql :=
  .template [(code "(select ", compileCanonicalPublicNumericIdentitySql (.code (code "\"canonical_package\".\"id\""))),
    (code " from ", profile.relation .packages),
    (code " \"canonical_package\" where \"canonical_package\".\"pk\" = ", physicalPk)] .closing

def contractTypePublicKeyExpression (physicalPk : Sql) : Sql :=
  let identity := compileCanonicalPublicNumericIdentityPartsSql
    [.code (code "\"canonical_contract_type\".\"payload_type\""),
      .code (code "\"canonical_contract_type\".\"template_fqn\"")]
  .template [(code "(select ", compileCanonicalPublicNumericIdentitySql identity),
    (code " from ", profile.relation .contractTypes),
    (code " \"canonical_contract_type\" where \"canonical_contract_type\".\"pk\" = ", physicalPk)] .closing

def exerciseTypePublicKeyExpression (physicalPk : Sql) : Sql :=
  let identity := compileCanonicalPublicNumericIdentitySql (.code (code "\"canonical_exercise_type\".\"choice_fqn\""))
  .template [(code "(select ", identity),
    (code " from ", profile.relation .exerciseTypes),
    (code " \"canonical_exercise_type\" where \"canonical_exercise_type\".\"pk\" = ", physicalPk)] .closing

def eventTypeExpression (physical : Sql) : Sql :=
  .template [(code "case ", physical),
    (code "::text when 'create' then 'created' when 'exercise' then 'exercised' else ", physical)]
    (code "::text end")

def traceContextExpression (physical : Sql) : Sql :=
  .template [(code "case when ", physical),
    (code " is null then null else jsonb_strip_nulls(jsonb_build_object('traceparent', nullif(to_jsonb(", physical),
    (code ")->>'trace_parent', ''), 'tracestate', nullif(to_jsonb(", physical)] (code ")->>'trace_state', ''))) end")

def compileCanonicalPhysicalField (relation : QueryRelation) (field : String) (tableAlias : SqlAlias) :
    Except String Sql := do
  let column ← pqsColumn relation field
  let physical := qualified tableAlias column
  return match relation, field with
    | .events, "eventId" => eventIdExpression physical
    | .events, "pk" => compileCanonicalPublicNumericIdentitySql (eventIdExpression (qualified tableAlias "event_id"))
    | .events, "txIx" => transactionOffsetExpression profile physical
    | .events, "type" => eventTypeExpression physical
    | .transactions, "workflowId" => .template [(code "nullif(", physical)] (code ", '')")
    | .transactions, "traceContext" => traceContextExpression physical
    | .transactions, "ix" | .transactions, "offset" | .watermark, "ix" | .watermark, "offset" =>
        qualified tableAlias "offset"
    | .packages, "pk" => compileCanonicalPublicNumericIdentitySql (qualified tableAlias "id")
    | .contractTypes, "pk" => compileCanonicalPublicNumericIdentitySql
        (compileCanonicalPublicNumericIdentityPartsSql
          [qualified tableAlias "payload_type", qualified tableAlias "template_fqn"])
    | .exerciseTypes, "pk" => compileCanonicalPublicNumericIdentitySql (qualified tableAlias "choice_fqn")
    | .exercises, "tpePk" => exerciseTypePublicKeyExpression profile physical
    | .exercises, "contractTpePk" => contractTypePublicKeyExpression profile physical
    | .exercises, "exerciseEventPk" => eventPublicKeyExpression profile physical
    | .exercises, "exercisedAtIx" => transactionOffsetExpression profile physical
    | .exercises, "packagePk" => packagePublicKeyExpression profile physical
    | _, _ => physical

/-! ## Fields of contracts -/

inductive Lifecycle where
  | created | archived

inductive TransactionColumn where
  | offset | effectiveAt

def contractTransactionFieldExpression (tableAlias : SqlAlias) (lifecycle : Lifecycle) (field : TransactionColumn) : Sql :=
  match tableAlias with
  | .contractRow =>
      match lifecycle, field with
      | .created, .offset => .code (code "created_tx.offset")
      | .created, .effectiveAt => .code (code "created_tx.effective_at")
      | .archived, .offset => .code (code "archived_tx.offset")
      | .archived, .effectiveAt => .code (code "archived_tx.effective_at")
  | _ =>
      let transaction : Sql :=
        match lifecycle with
        | .created => .code (code "created_transaction")
        | .archived => .code (code "archived_transaction")
      let column :=
        match field with
        | .offset => "offset"
        | .effectiveAt => "effective_at"
      let index :=
        match lifecycle with
        | .created => "created_at_ix"
        | .archived => "archived_at_ix"
      .template [(code "(select ", transaction), (.dot, .identifier column),
        (code " from ", profile.relation .transactions),
        (.blank, transaction), (code " where ", transaction), (code ".\"ix\" = ", qualified tableAlias index)] .closing

inductive ContractTypeColumn where
  | moduleName | entityName

def contractTypeFieldExpression (tableAlias : SqlAlias) (field : ContractTypeColumn) : Sql :=
  match tableAlias with
  | .contractRow =>
      match field with
      | .moduleName => .code (code "contract_tpe_row.module_name")
      | .entityName => .code (code "contract_tpe_row.entity_name")
  | _ =>
      let column :=
        match field with
        | .moduleName => "module_name"
        | .entityName => "entity_name"
      .template [(code "(select contract_type.", .identifier column), (code " from ", profile.relation .contractTypes),
        (code " contract_type where contract_type.\"pk\" = ", qualified tableAlias "tpe_pk")] .closing

def contractPackageIdExpression (tableAlias : SqlAlias) : Sql :=
  let packageId : Sql :=
    match tableAlias with
    | .contractRow => .code (code "contract_package.id")
    | _ =>
        .template [(code "(select contract_package.\"id\" from ", profile.relation .packages),
          (code " contract_package where contract_package.\"pk\" = ", qualified tableAlias "package_pk")] .closing
  let creationPackageId := logicalQualified tableAlias "creation_package_id" (code "contract_row.creation_package_id")
  .template [(code "coalesce(", creationPackageId),
    (.comma, packageId)] .closing

/-- `path #>> $n::text[]`. -/
def jsonText (base : Sql) (path : List String) : Compile Sql := do
  return .template [(.nothing, base), (code " #>> ", ← add (.texts path))] (code "::text[]")

def contractPredicateExpression (tableAlias : SqlAlias) (field : String) (path : List String) : Compile Sql :=
  match field with
  | "payload" => jsonText (logicalQualified tableAlias "payload" (code "contract_row.payload")) path
  | "contractId" => return logicalQualified tableAlias "contract_id" (code "contract_row.contract_id")
  | "packageId" => return contractPackageIdExpression profile tableAlias
  | "createdEventOffset" => return contractTransactionFieldExpression profile tableAlias .created .offset
  | "createdAt" => return contractTransactionFieldExpression profile tableAlias .created .effectiveAt
  | "archivedEventOffset" => return contractTransactionFieldExpression profile tableAlias .archived .offset
  | "archivedAt" => return contractTransactionFieldExpression profile tableAlias .archived .effectiveAt
  | "templateId" =>
      match path.head? with
      | some "packageId" => return contractPackageIdExpression profile tableAlias
      | some "moduleName" => return contractTypeFieldExpression profile tableAlias .moduleName
      | some "entityName" => return contractTypeFieldExpression profile tableAlias .entityName
      | _ => throw (field ++ " is not a field of contracts")
  | _ => throw (field ++ " is not a field of contracts")

/-! ## Predicates -/

/-- The name of an edge as an alias. -/
def edgeAlias (edge : QueryEdge) : Sql := .identifier edge.name

def compileCanonicalPhysicalEdgeJoin (source : QueryRelation) (edge : QueryEdge) (parentAlias : SqlAlias)
    (targetAlias : Sql) : Except String Sql := do
  if edge.source ≠ source then throw ("Invalid canonical edge " ++ edge.name)
  let equation (left right : Sql) : Sql := .template [(.nothing, left), (.equation, right)] .nothing
  match edge with
  | .contractTypesContracts =>
      return equation (contractTypePublicKeyExpression profile (qualified (.named targetAlias) "tpe_pk"))
        (← compileCanonicalPhysicalField profile source "pk" parentAlias)
  | .contractTypesExercises =>
      return equation (← compileCanonicalPhysicalField profile .exercises "contractTpePk" (.named targetAlias))
        (← compileCanonicalPhysicalField profile source "pk" parentAlias)
  | .exerciseTypesExercises =>
      return equation (← compileCanonicalPhysicalField profile .exercises "tpePk" (.named targetAlias))
        (← compileCanonicalPhysicalField profile source "pk" parentAlias)
  | edge =>
      let columns := pqsEdgeColumns edge
      let parent : Sql :=
        match parentAlias with
        | .none => .template [(.nothing, profile.relation source), (.dot, .identifier columns.sourceColumn)] .nothing
        | _ => qualified parentAlias columns.sourceColumn
      return equation (qualified (.named targetAlias) columns.targetColumn) parent

/-- The operators that compare, with their text. -/
def comparison : ScalarOperator → Option {text : SqlCode // between text = true}
  | .equals => some ⟨.equation, rfl⟩
  | .lt => some ⟨code " < ", rfl⟩
  | .lte => some ⟨code " <= ", rfl⟩
  | .gt => some ⟨code " > ", rfl⟩
  | .gte => some ⟨code " >= ", rfl⟩
  | .like => some ⟨code " like ", rfl⟩
  | .ilike => some ⟨code " ilike ", rfl⟩
  | .in_ | .is | .isNot | .has => none

def physicalEventText (text : String) : String :=
  if text = "created" then "create" else if text = "exercised" then "exercise" else text

mutual

def physicalEventType : QueryValue → QueryValue
  | .array items => .array (physicalEventTypes items)
  | .text text => .text (physicalEventText text)
  | value => value

def physicalEventTypes : List QueryValue → List QueryValue
  | [] => []
  | item :: rest => physicalEventType item :: physicalEventTypes rest

end

def isEmptyArray : QueryValue → Bool
  | .array [] => true
  | _ => false

/-- Whether the column of the event type is compared with the type as PQS stores it. -/
def inverseEventType (relation : QueryRelation) (field : String) (operator : ScalarOperator) : Bool :=
  decide (relation = .events ∧ field = "type" ∧ (operator = .equals ∨ operator = .in_))

/-- The expression that a condition on a field is about. -/
def canonicalExpression (relation : QueryRelation) (tableAlias : SqlAlias) (field : String) (path : List String) :
    Compile Sql := do
  if relation = .contracts then contractPredicateExpression profile tableAlias field path
  else
    let physical ← compileCanonicalPhysicalField profile relation field tableAlias
    if path = [] then return physical else jsonText physical path

/-- The condition that the operator makes of the expression. -/
def scalarCondition (operator : ScalarOperator) (expression column : Sql) (value : QueryValue) : Compile Sql := do
  match operator with
  | .is => return .template [(.nothing, expression)] (code " is null")
  | .isNot => return .template [(.nothing, expression)] (code " is not null")
  | .in_ =>
      if isEmptyArray value then return .code (code "false")
      else return .template [(.nothing, expression), (code " = any(", ← add (.value value))] .closing
  | .has => return .template [(.nothing, ← add (.value value)), (code " = any(", column)] .closing
  | operator =>
      match comparison operator with
      | some text => return .join text.1 [expression, ← add (.value value)] text.2
      | none => throw "Unsupported canonical operator"

/-- The case of `compileCanonicalPredicate` for a condition on a field. -/
def compileScalar (relation : QueryRelation) (tableAlias : SqlAlias) (path : List String) (operator : ScalarOperator)
    (value : QueryValue) : Compile Sql := do
  let field := path.head?.getD "undefined"
  if relation = .contracts ∧ field = "active" then
    let column := logicalQualified tableAlias "archived_at_ix" (code "contract_row.archived_at_ix")
    match value with
    | .bool true => return .template [(.nothing, column)] (code " is null")
    | _ => return .template [(.nothing, column)] (code " is not null")
  else if relation = .contracts ∧ field = "witnesses" then
    let party ← add (.value value)
    return .template
      [(.nothing, party), (code " = any(", logicalQualified tableAlias "witnesses" (code "contract_row.witnesses"))]
        .closing
  else
    -- Contracts have no columns of their own: the source then writes the text of `undefined`.
    let column ← (if relation = .contracts then .ok "undefined" else pqsColumn relation field : Except String String)
    let expression ← canonicalExpression profile relation tableAlias field path.tail
    if inverseEventType relation field operator then
      scalarCondition operator (qualified tableAlias column) (qualified tableAlias column) (physicalEventType value)
    else scalarCondition operator expression (qualified tableAlias column) value

mutual

/-- Contracts are compared by their logical fields, wherever they stand. -/
def compileCanonicalPredicate (relation : QueryRelation) (tableAlias : SqlAlias) : QueryPredicate → Compile Sql
  | .and [] => return .code (code "true")
  | .or [] => return .code (code "false")
  | .and children => do
      return .template [(code "(", .join (code " and ") (← compileCanonicalPredicates relation tableAlias children))]
        .closing
  | .or children => do
      return .template [(code "(", .join (code " or ") (← compileCanonicalPredicates relation tableAlias children))]
        .closing
  | .not child => do
      return .template [(code "not (", ← compileCanonicalPredicate relation tableAlias child)] .closing
  | .relation edge quantifier predicate => do
      let join ← compileCanonicalPhysicalEdgeJoin profile relation edge tableAlias (edgeAlias edge)
      let condition ← compileCanonicalPredicate edge.target (.named (edgeAlias edge)) predicate
      let base : Sql := .template [(code "select 1 from ", profile.relation edge.target), (.blank, edgeAlias edge),
        (code " where ", join), (code " and (", condition)] .closing
      return match quantifier with
        | .one | .some => .template [(code "exists (", base)] .closing
        | .none => .template [(code "not exists (", base)] .closing
        | .every =>
            .template [(code "not exists (select 1 from ", profile.relation edge.target), (.blank, edgeAlias edge),
              (code " where ", join), (code " and not (", condition)] (code "))")
  | .scalar path operator value => compileScalar profile relation tableAlias path operator value

def compileCanonicalPredicates (relation : QueryRelation) (tableAlias : SqlAlias) : List QueryPredicate → Compile (List Sql)
  | [] => return []
  | child :: rest => do
      let first ← compileCanonicalPredicate relation tableAlias child
      return first :: (← compileCanonicalPredicates relation tableAlias rest)

end

/-! ## Orders -/

def directed (field : Sql) : QueryOrderDirection → Sql
  | .asc => .template [(.nothing, field)] (code " asc")
  | .desc => .template [(.nothing, field)] (code " desc")

/-- `compileCanonicalOrderBy`, without the blank in front. A field that is not listed is written as `undefined`. -/
def compileCanonicalOrderBy (orderBy : List NormalizedOrder) (fields : String → Option Sql) : Option Sql :=
  if orderBy.isEmpty then none
  else some (.template [(.ordering, .commas (orderBy.map fun order =>
    directed ((fields (order.path.head?.getD "undefined")).getD (.code (code "undefined"))) order.direction))] .nothing)

def contractOrderField (tableAlias : SqlAlias) (contractId : Sql) : String → Option Sql
  | "contractId" => some contractId
  | "createdEventOffset" => some (contractTransactionFieldExpression profile tableAlias .created .offset)
  | "createdAt" => some (contractTransactionFieldExpression profile tableAlias .created .effectiveAt)
  | "archivedEventOffset" => some (contractTransactionFieldExpression profile tableAlias .archived .offset)
  | "archivedAt" => some (contractTransactionFieldExpression profile tableAlias .archived .effectiveAt)
  | _ => none

/-- The fields of a contract that stands as `contract_row`. -/
def contractRowField : String → Option Sql :=
  contractOrderField profile .contractRow (.code (code "contract_row.contract_id"))

def compileCanonicalContractOrderBy (orderBy : List NormalizedOrder) : Option Sql :=
  compileCanonicalOrderBy orderBy (contractRowField profile)

def compileCanonicalPhysicalOrderBy (relation : QueryRelation) (orderBy : List NormalizedOrder) (tableAlias : SqlAlias) :
    Option Sql :=
  compileCanonicalOrderBy orderBy fun field =>
    if relation = .contracts then contractOrderField profile tableAlias (qualified tableAlias "contract_id") field
    else (compileCanonicalPhysicalField profile relation field tableAlias).toOption

/-! ## Includes -/

/-- The scalar that a JSON text is read as, for a row that is returned. -/
def jsonScalar (text : Sql) : JsonScalarType → Sql
  | .text => text
  | .numeric => .template [(code "(", text)] (code ")::numeric::text")
  | .boolean => .template [(code "(", text)] (code ")::boolean")
  | .timestamp => .template [(code "(", text)] (code ")::timestamptz")

/-- `expression as name`. -/
def named (expression name : Sql) : Sql := .template [(.nothing, expression), (code " as ", name)] .nothing

def contractFieldNames : List String :=
  ["contractId", "templateId", "packageId", "payload", "witnesses", "createdEventOffset", "createdAt",
    "archivedEventOffset",
    "archivedAt", "active"]

/-- The expressions of an included contract. -/
def contractFieldExpression (tableAlias : SqlAlias) : String → Option Sql
  | "contractId" => some (qualified tableAlias "contract_id")
  | "templateId" =>
      some (.template [(code "jsonb_build_object('packageId', ", contractPackageIdExpression profile tableAlias),
      (code ", 'moduleName', ", contractTypeFieldExpression profile tableAlias .moduleName),
      (code ", 'entityName', ", contractTypeFieldExpression profile tableAlias .entityName)] .closing)
  | "packageId" => some (contractPackageIdExpression profile tableAlias)
  | "payload" => some (qualified tableAlias "payload")
  | "witnesses" => some (qualified tableAlias "witnesses")
  | "createdEventOffset" =>
      some (.template [(.nothing, contractTransactionFieldExpression profile tableAlias .created .offset)] (code "::text"))
  | "createdAt" => some (contractTransactionFieldExpression profile tableAlias .created .effectiveAt)
  | "archivedEventOffset" =>
      some (.template [(.nothing, contractTransactionFieldExpression profile tableAlias .archived .offset)] (code "::text"))
  | "archivedAt" => some (contractTransactionFieldExpression profile tableAlias .archived .effectiveAt)
  | "active" => some (.template [(.nothing, qualified tableAlias "archived_at_ix")] (code " is null"))
  | _ => none

/-- The fields of an included row with their names; the text of a field that a contract lacks is empty. -/
def compileCanonicalIncludedFields (target : QueryRelation) (select : Option NormalizedSelection) (tableAlias : SqlAlias) :
    Except String (List Sql) :=
  if target = .contracts then
    .ok (((select.map (·.fields)).getD contractFieldNames).flatMap fun field =>
      [.string field, (contractFieldExpression profile tableAlias field).getD .empty])
  else do
    let fields := (select.map (·.fields)).getD ((pqsFields target).map Prod.fst)
    let pairs ← fields.mapM fun field => do
      let expression ← compileCanonicalPhysicalField profile target field tableAlias
      if field ∈ (queryRelationMetadata target).numericFields then
        return [.string field, .template [(.nothing, expression)] (code "::text")]
      else return [.string field, expression]
    return pairs.flatten

/-- The base of a JSON projection of an included row. -/
def includedJsonBase (target : QueryRelation) (field : String) (tableAlias : SqlAlias) : Except String Sql :=
  if target = .contracts then
    if field = "payload" then .ok (qualified tableAlias "payload")
    else .error ("Invalid canonical JSON projection " ++ field)
  else
    match (pqsFields target).lookup field with
    | none => .error ("Invalid canonical JSON projection " ++ field)
    | some _ => compileCanonicalPhysicalField profile target field tableAlias

def compileIncludedJson (target : QueryRelation) (tableAlias : SqlAlias) :
    List NormalizedJsonSelection → Compile (List Sql)
  | [] => return []
  | projection :: rest => do
      let base ← includedJsonBase profile target projection.field tableAlias
      let text ← jsonText base projection.path
      return .givenString projection.name :: jsonScalar text projection.as :: (← compileIncludedJson target tableAlias rest)

structure CompiledPqsInclude where
  key : String
  expression : Sql

def CompiledPqsInclude.selection (include_ : CompiledPqsInclude) : Sql :=
  named include_.expression (.identifier include_.key)

/-- The text of a filter, with the values it needs. -/
def compileFilter (relation : QueryRelation) (tableAlias : SqlAlias) : Option QueryPredicate → Compile Sql
  | none => return .code (code "true")
  | some predicate => compileCanonicalPredicate profile relation tableAlias predicate

/-- `limit $n`, for the rows at the end of a to-many edge. -/
def includedLimit (cardinality : Cardinality) (take : Option Nat) : Compile (List Sql) :=
  match cardinality with
  | .one => return []
  | .many => return [.template [(code "limit ", ← add (.count take))] .nothing]

def includedOffset (cardinality : Cardinality) (skip : Nat) : Compile (List Sql) :=
  match cardinality with
  | .one => return []
  | .many => if skip = 0 then return [] else return [.template [(code "offset ", ← add (.count (some skip)))] .nothing]

/-- The subselect of an include, from the parts that its query was compiled to. -/
def includedExpression (edge : QueryEdge) (object condition : Sql) (tail : List Sql) : Sql :=
  let relation := profile.relation edge.target
  match edge.cardinality with
  | .one =>
      .template [(code "(select ", object), (code " from ", relation), (.blank, edgeAlias edge),
        (code " where ", condition)]
      .closing
  | .many =>
      let limited : Sql := .identifier (edge.name ++ "_limited")
      .template [(code "(select coalesce(jsonb_agg(", limited), (code ".value), '[]'::jsonb) from (select ", object),
        (code " as value from ", relation), (.blank, edgeAlias edge),
        (code " where ", .blanks (condition :: tail)), (code ") ", limited)] .closing

mutual

def compileCanonicalPhysicalInclude (source : QueryRelation) (parentAlias : SqlAlias) :
    NormalizedInclude → Compile CompiledPqsInclude
  | ⟨edge, predicate, select, includes, orderBy, skip, take⟩ => do
      if edge.source ≠ source then throw ("Invalid canonical include " ++ edge.name)
      let tableAlias := SqlAlias.named (edgeAlias edge)
      let fields ← compileCanonicalIncludedFields profile edge.target select tableAlias
      let json ← compileIncludedJson profile edge.target tableAlias ((select.map (·.json)).getD [])
      let nested ← compileCanonicalPhysicalIncludes edge.target tableAlias includes
      let nestedFields := nested.flatMap fun selection => [.string selection.key, selection.expression]
      let object : Sql :=
        .template [(code "jsonb_build_object(", .commas (fields ++ json ++ nestedFields))] .closing
      let filter ← compileFilter profile edge.target tableAlias predicate
      let join ← compileCanonicalPhysicalEdgeJoin profile source edge parentAlias (edgeAlias edge)
      let condition : Sql := .template [(.nothing, join), (code " and (", filter)] .closing
      let order := (compileCanonicalPhysicalOrderBy profile edge.target orderBy tableAlias).toList
      let limit ← includedLimit edge.cardinality take
      let offset ← includedOffset edge.cardinality skip
      return ⟨edge.name, includedExpression profile edge object condition (order ++ limit ++ offset)⟩

def compileCanonicalPhysicalIncludes (source : QueryRelation) (parentAlias : SqlAlias) :
    List NormalizedInclude → Compile (List CompiledPqsInclude)
  | [] => return []
  | include_ :: rest => do
      let first ← compileCanonicalPhysicalInclude source parentAlias include_
      return first :: (← compileCanonicalPhysicalIncludes source parentAlias rest)

end

/-! ## Contracts -/

def contractFrom : Sql :=
  .template [(.source, profile.relation .contracts),
    (code " contract_row join ", profile.relation .contractTypes),
    (code " contract_tpe_row on contract_tpe_row.pk = contract_row.tpe_pk left join ", profile.relation .transactions),
    (code " created_tx on created_tx.ix = contract_row.created_at_ix left join ", profile.relation .transactions),
    (code " archived_tx on archived_tx.ix = contract_row.archived_at_ix left join ", profile.relation .packages)]
    (code " contract_package on contract_package.pk = contract_row.package_pk")

def contractFilter : Option QueryPredicate → Compile (List Sql)
  | none => return []
  | some predicate => return [← compileCanonicalPredicate profile .contracts .contractRow predicate]

def witnessCondition : Option (List String) → Compile (List Sql)
  | none => return []
  | some parties => return [.template [(code "contract_row.witnesses && ", ← add (.texts parties))] (code "::text[]")]

/-- The conditions of a query on contracts: its filter and the parties it is for. -/
def contractConditions (predicate : Option QueryPredicate) (parties : Option (List String)) : Compile (List Sql) := do
  let filter ← contractFilter profile predicate
  let witnesses ← witnessCondition parties
  return filter ++ witnesses

/-- `where …`, where there are conditions. -/
def whereClause (conditions : List Sql) : List Sql :=
  if conditions.isEmpty then [] else [.template [(.condition, .join (code " and ") conditions)] .nothing]

/-- A JSON value of a contract by the name it is selected with. -/
def compileContractJson : List NormalizedJsonSelection → Compile (List Sql)
  | [] => return []
  | projection :: rest => do
      let text ← jsonText (.code (code "contract_row.payload")) projection.path
      return named (jsonScalar text projection.as) (.givenIdentifier projection.name) :: (← compileContractJson rest)

/-- A compiled statement with the values that are bound to its placeholders. -/
structure CompiledPqsQuery where
  text : Sql
  values : List SqlValue

/-- Runs a compiler with no values yet. -/
def compiled (compile : Compile Sql) : Except String CompiledPqsQuery :=
  (compile []).map fun result => ⟨result.1, result.2⟩

/-- A clause with a count, which is left out where there is none. -/
def countClause (keyword : SqlCode) (hkeyword : endsApart keyword.chars = true) : Option Nat → Compile Sql
  | none => return .empty
  | some count =>
      return .template [(keyword, ← add (.count (some count)))] .nothing (by simp [fits, hkeyword, startsApart, code, SqlCode.nothing])

def limitClause (take : Option Nat) : Compile Sql := countClause (code "limit ") rfl take

def offsetClause (skip : Nat) : Compile Sql := countClause (code "offset ") rfl (if skip = 0 then none else some skip)

def compileContractFindMany (query : NormalizedFindManyQuery) : Compile Sql := do
  if query.relation ≠ .contracts then throw "compileContractFindMany requires a contracts query"
  let conditions ← contractConditions profile query.predicate query.parties
  let orderBy : Sql :=
    match compileCanonicalContractOrderBy profile query.orderBy with
    | none => .empty
    | some orderBy => .template [(.blank, orderBy)] .nothing
  let limit ← limitClause query.take
  let offset ← offsetClause query.skip
  let included ← compileCanonicalPhysicalIncludes profile .contracts .contractRow query.includes
  let json ← compileContractJson ((query.select.map (·.json)).getD [])
  let packageId := contractPackageIdExpression profile .contractRow
  let columns : List Sql := [
    .code (code "contract_row.contract_id as contract_id"), .template [(.nothing, packageId)] (code " as package_id"),
    .code (code "contract_row.payload"), .code (code "contract_row.witnesses"),
    .code (code "created_tx.offset::text as created_event_offset"), .code (code "created_tx.effective_at as created_at"),
    .code (code "archived_tx.offset::text as archived_event_offset"),
    .code (code "archived_tx.effective_at as archived_at"),
    .code (code "contract_row.archived_at_ix is null as active"),
    .template [(.nothing, packageId)] (code " as template_package_id"),
    .code (code "contract_tpe_row.module_name as template_module_name"),
    .code (code "contract_tpe_row.entity_name as template_entity_name")]
  return .template [
    (code "select\n  ", .join (code ",\n  ") (columns ++ included.map (·.selection) ++ json)),
    (code "\nfrom ", profile.relation .contracts),
    (code " contract_row\njoin ", profile.relation .contractTypes),
    (code " contract_tpe_row on contract_tpe_row.pk = contract_row.tpe_pk\nleft join ", profile.relation .transactions),
    (code " created_tx on created_tx.ix = contract_row.created_at_ix\nleft join ", profile.relation .transactions),
    (code " archived_tx on archived_tx.ix = contract_row.archived_at_ix\nleft join ", profile.relation .packages),
    (code " contract_package on contract_package.pk = contract_row.package_pk\n",
      .blanks (whereClause conditions)),
    (code "\n", orderBy), (code "\n", limit), (code "\n", offset)] .nothing

def compileContractCount (query : NormalizedCountQuery) : Compile Sql := do
  if query.relation ≠ .contracts then throw "compileContractCount requires a contracts query"
  let conditions ← contractConditions profile query.predicate query.parties
  return .blanks
    (.template [(code "select count(*)::text as count ", contractFrom profile)] .nothing :: whereClause conditions)

inductive AggregateOperation where
  | min | max | sum

def AggregateOperation.name : AggregateOperation → String
  | min => "min"
  | max => "max"
  | sum => "sum"

/-- `operation(expression)::text as "operation_field"`. -/
def aggregated (operation : AggregateOperation) (expression : Sql) (field : String) : Sql :=
  let result : Sql :=
    match operation with
    | .min => .template [(code "min(", expression)] (code ")::text")
    | .max => .template [(code "max(", expression)] (code ")::text")
    | .sum => .template [(code "sum(", expression)] (code ")::text")
  named result (.identifier (operation.name ++ "_" ++ field))

/-- The aggregates that are asked for, in the order of the loops. -/
def requestedAggregates (aggregates : NormalizedAggregateSelection) : List (AggregateOperation × String) :=
  aggregates.min.map (AggregateOperation.min, ·) ++ aggregates.max.map (AggregateOperation.max, ·)
    ++ aggregates.sum.map (AggregateOperation.sum, ·)

def countSelection (aggregates : NormalizedAggregateSelection) : List Sql :=
  if aggregates.count then [.code (code "count(*)::text as count")] else []

def contractAggregateField : String → Option Sql
  | "createdEventOffset" => some (.code (code "created_tx.offset"))
  | "archivedEventOffset" => some (.code (code "archived_tx.offset"))
  | _ => none

def compileContractAggregate (query : NormalizedAggregateQuery) : Compile Sql := do
  if query.relation ≠ .contracts then throw "compileContractAggregate requires a contracts query"
  let requested ← ((requestedAggregates query.aggregates).mapM fun entry =>
    match contractAggregateField entry.2 with
    | none => .error (entry.2 ++ " is not a numeric aggregate field of contracts")
    | some expression => .ok (aggregated entry.1 expression entry.2) : Except String (List Sql))
  let selected := countSelection query.aggregates ++ requested
  if selected.isEmpty then throw "aggregate must request at least one result"
  let conditions ← contractConditions profile query.predicate none
  return .blanks
    (.template [(.selecting, .commas selected), (.blank, contractFrom profile)] .nothing
      :: whereClause conditions)

/-! ## Groups of contracts -/

/-- A group key as it is grouped by and as it is selected, and whether it is one of the witnesses. -/
structure CompiledGroupKey where
  expression : Sql
  selection : Sql

/-- The scalar that a JSON text is grouped by. -/
def jsonGroupScalar (text : Sql) : JsonScalarType → Sql
  | .text => text
  | .numeric => .template [(code "(", text)] (code ")::numeric")
  | .boolean => .template [(code "(", text)] (code ")::boolean")
  | .timestamp => .template [(code "(", text)] (code ")::timestamptz")

def isWitnessesKey : NormalizedGroupKey → Bool
  | .field path => path.head? = some "witnesses"
  | _ => false

def compileContractGroupKey (key : NormalizedGroupKey) : Compile CompiledGroupKey :=
  match key with
  | .field path =>
      let name := path.head?.getD "undefined"
      if isWitnessesKey key then return ⟨.code (code "witness.value"), .code (code "witness.value as \"witnesses\"")⟩
      else
        match contractRowField profile name with
        | none => throw (name ++ " is not a contract group key")
        | some expression => return ⟨expression, named expression (.identifier name)⟩
  | .json field name path as => do
      if field ≠ "payload" then throw "invalid contract group key"
      let base ← jsonText (.code (code "contract_row.payload")) path
      return ⟨jsonGroupScalar base as, named (jsonGroupScalar base as) (.givenIdentifier name)⟩
  | _ => throw "invalid contract group key"

def compileGroupKeys (compileKey : NormalizedGroupKey → Compile CompiledGroupKey) :
    List NormalizedGroupKey → Compile (List CompiledGroupKey)
  | [] => return []
  | key :: rest => do
      let first ← compileKey key
      return first :: (← compileGroupKeys compileKey rest)

/-- Whether nothing is asked for about the groups, or there is nothing to group by. -/
def nothingGrouped (query : NormalizedGroupByQuery) : Bool :=
  query.by_.isEmpty || (!query.aggregates.count && (requestedAggregates query.aggregates).isEmpty)

def groupByClause (keys : List CompiledGroupKey) : Sql :=
  .template [(code "group by ", .commas (keys.map (·.expression)))] .nothing

def compileContractGroupBy (query : NormalizedGroupByQuery) : Compile Sql := do
  if query.relation ≠ .contracts then throw "compileContractGroupBy requires a contracts query"
  if nothingGrouped query then throw "groupBy requires keys and an aggregate"
  let conditions ← contractConditions profile query.predicate none
  let keys ← compileGroupKeys (compileContractGroupKey profile) query.by_
  let requested := (requestedAggregates query.aggregates).map fun entry =>
    aggregated entry.1 ((contractRowField profile entry.2).getD (.code (code "undefined"))) entry.2
  let selected := keys.map (·.selection) ++ countSelection query.aggregates ++ requested
  let unnested : List Sql :=
    if query.by_.any isWitnessesKey then
      [.code (code "cross join lateral unnest(contract_row.witnesses) as witness(value)")]
    else []
  return .blanks
    (.template [(.selecting, .commas selected), (.blank, contractFrom profile)] .nothing
      :: (unnested ++ whereClause conditions ++ [groupByClause keys]))

end Profile

end CantonSdk.Query.Pqs
