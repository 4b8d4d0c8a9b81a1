import CantonSdk.Query.Canonical.Schema
import CantonSdk.Query.Pqs.SqlText

/-!
# The tables of PQS

The tables, columns and join columns that the relations of queries are read from. A relation of PQS is told by the relation
of queries it holds. The names of the schema have no quotes: quoting one is putting it between quotes.
-/

set_option linter.all false

namespace CantonSdk.Query.Pqs

open CantonSdk.Query.Canonical

/-- `pqsRelationByQueryRelation`. -/
def pqsRelationName : QueryRelation → String
  | .contracts => "__contracts"
  | .contractTypes => "__contract_tpe"
  | .events => "__events"
  | .exercises => "__exercises"
  | .exerciseTypes => "__exercise_tpe"
  | .packages => "__packages"
  | .transactions => "__transactions"
  | .watermark => "__watermark"

/-- The columns of the fields. Contracts have expressions of their own. -/
def pqsFields : QueryRelation → List (String × String)
  | .contracts => []
  | .contractTypes =>
      [("pk", "pk"), ("payloadType", "payload_type"), ("aliases", "aliases"), ("packageName", "package_name"),
      ("moduleName", "module_name"), ("entityName", "entity_name"), ("templateFqn", "template_fqn")]
  | .events => [("pk", "pk"), ("txIx", "tx_ix"), ("eventId", "event_id"), ("type", "type")]
  | .exercises => [("tpePk", "tpe_pk"), ("contractTpePk", "contract_tpe_pk"), ("exerciseEventPk", "exercise_event_pk"),
      ("exercisedAtIx", "exercised_at_ix"), ("contractId", "contract_id"), ("argument", "argument"), ("result", "result"),
      ("redactionId", "redaction_id"), ("packagePk", "package_pk"), ("controllers", "controllers"),
      ("lastDescendantNodeId", "last_descendant_node_id"), ("witnesses", "witnesses")]
  | .exerciseTypes => [("pk", "pk"), ("choice", "choice"), ("consuming", "consuming"), ("aliases", "aliases"),
      ("packageName", "package_name"), ("moduleName", "module_name"), ("entityName", "entity_name"),
      ("templateFqn", "template_fqn"), ("choiceFqn", "choice_fqn")]
  | .packages => [("pk", "pk"), ("name", "name"), ("version", "version"), ("id", "id")]
  | .transactions =>
      [("ix", "ix"), ("offset", "offset"), ("transactionId", "transaction_id"), ("effectiveAt", "effective_at"),
      ("workflowId", "workflow_id"), ("domainId", "domain_id"), ("traceContext", "trace_context"),
      ("externalTransactionHash", "external_transaction_hash"), ("paidTrafficCost", "paid_traffic_cost")]
  | .watermark => [("singleton", "singleton"), ("ix", "ix"), ("offset", "offset"), ("instanceId", "instance_id")]

structure PqsEdgeColumns where
  sourceColumn : String
  targetColumn : String

def pqsEdgeColumns : QueryEdge → PqsEdgeColumns
  | .contractsContractType => ⟨"tpe_pk", "pk"⟩
  | .contractsCreatedTransaction => ⟨"created_at_ix", "ix"⟩
  | .contractsArchivedTransaction => ⟨"archived_at_ix", "ix"⟩
  | .contractsExercises => ⟨"contract_id", "contract_id"⟩
  | .contractTypesContracts => ⟨"pk", "tpe_pk"⟩
  | .contractTypesExercises => ⟨"pk", "contract_tpe_pk"⟩
  | .eventsTransaction => ⟨"tx_ix", "ix"⟩
  | .eventsExercises => ⟨"pk", "exercise_event_pk"⟩
  | .exercisesExerciseType => ⟨"tpe_pk", "pk"⟩
  | .exercisesContractType => ⟨"contract_tpe_pk", "pk"⟩
  | .exercisesEvent => ⟨"exercise_event_pk", "pk"⟩
  | .exercisesTransaction => ⟨"exercised_at_ix", "ix"⟩
  | .exercisesPackage => ⟨"package_pk", "pk"⟩
  | .exercisesContract => ⟨"contract_id", "contract_id"⟩
  | .exerciseTypesExercises => ⟨"pk", "tpe_pk"⟩
  | .packagesExercises => ⟨"pk", "package_pk"⟩
  | .transactionsEvents => ⟨"ix", "tx_ix"⟩
  | .transactionsCreatedContracts => ⟨"ix", "created_at_ix"⟩
  | .transactionsArchivedContracts => ⟨"ix", "archived_at_ix"⟩
  | .transactionsExercises => ⟨"ix", "exercised_at_ix"⟩

/-- `schemaIdentifier`. -/
def isSchemaIdentifier (schema : String) : Bool :=
  match schema.toList with
  | [] => false
  | first :: rest => (first.isAlpha || first = '_') && rest.all fun c => c.isAlphanum || c = '_'

/-- A profile whose schema has passed `assertPqsSchemaIdentifier`. -/
structure PqsSchemaProfileV1 where
  schema : String
  valid : isSchemaIdentifier schema = true

/-- The profile of the schema `public`. -/
def publicProfile : PqsSchemaProfileV1 := ⟨"public", by decide +kernel⟩

def PqsSchemaProfileV1.relation (profile : PqsSchemaProfileV1) (relation : QueryRelation) : Sql :=
  .template [(.nothing, .identifier profile.schema), (.dot, .identifier (pqsRelationName relation))] .nothing

/-- The column of a field. -/
def pqsColumn (relation : QueryRelation) (name : String) : Except String String :=
  match (pqsFields relation).lookup name with
  | some column => .ok column
  | none => .error (name ++ " is not a field of " ++ pqsRelationName relation)

end CantonSdk.Query.Pqs
