import CantonSdk.Query.Canonical.Value

/-!
# The relations of a query

Eight relations, their edges and what is known about their fields. An edge belongs to the relation it
starts from: two relations may each have an edge called `exercises`.
-/

set_option linter.all false

namespace CantonSdk.Query.Canonical

inductive QueryRelation where
  | contracts | contractTypes | events | exercises | exerciseTypes | packages | transactions | watermark
  deriving DecidableEq

namespace QueryRelation

def name : QueryRelation → String
  | contracts => "contracts"
  | contractTypes => "contractTypes"
  | events => "events"
  | exercises => "exercises"
  | exerciseTypes => "exerciseTypes"
  | packages => "packages"
  | transactions => "transactions"
  | watermark => "watermark"

end QueryRelation

def queryRelations : List QueryRelation :=
  [.contracts, .contractTypes, .events, .exercises, .exerciseTypes, .packages, .transactions, .watermark]

theorem mem_queryRelations (relation : QueryRelation) : relation ∈ queryRelations := by
  cases relation <;> decide

inductive Cardinality where
  | one | many
  deriving DecidableEq

inductive QueryEdge where
  | contractsContractType | contractsCreatedTransaction | contractsArchivedTransaction
  | contractsExercises
  | contractTypesContracts | contractTypesExercises
  | eventsTransaction | eventsExercises
  | exercisesExerciseType | exercisesContractType | exercisesEvent | exercisesTransaction
  | exercisesPackage | exercisesContract
  | exerciseTypesExercises
  | packagesExercises
  | transactionsEvents | transactionsCreatedContracts | transactionsArchivedContracts
  | transactionsExercises
  deriving DecidableEq

namespace QueryEdge

/-- The relation whose rows have the edge. -/
def source : QueryEdge → QueryRelation
  | contractsContractType | contractsCreatedTransaction | contractsArchivedTransaction
  | contractsExercises => .contracts
  | contractTypesContracts | contractTypesExercises => .contractTypes
  | eventsTransaction | eventsExercises => .events
  | exercisesExerciseType | exercisesContractType | exercisesEvent | exercisesTransaction
  | exercisesPackage | exercisesContract => .exercises
  | exerciseTypesExercises => .exerciseTypes
  | packagesExercises => .packages
  | transactionsEvents | transactionsCreatedContracts | transactionsArchivedContracts
  | transactionsExercises => .transactions

def name : QueryEdge → String
  | contractsContractType | exercisesContractType => "contractType"
  | contractsCreatedTransaction => "createdTransaction"
  | contractsArchivedTransaction => "archivedTransaction"
  | contractsExercises | contractTypesExercises | eventsExercises | exerciseTypesExercises
  | packagesExercises | transactionsExercises => "exercises"
  | contractTypesContracts => "contracts"
  | eventsTransaction | exercisesTransaction => "transaction"
  | exercisesExerciseType => "exerciseType"
  | exercisesEvent => "event"
  | exercisesPackage => "package"
  | exercisesContract => "contract"
  | transactionsEvents => "events"
  | transactionsCreatedContracts => "createdContracts"
  | transactionsArchivedContracts => "archivedContracts"

def target : QueryEdge → QueryRelation
  | contractsContractType | exercisesContractType => .contractTypes
  | contractsCreatedTransaction | contractsArchivedTransaction | eventsTransaction
  | exercisesTransaction => .transactions
  | contractsExercises | contractTypesExercises | eventsExercises | exerciseTypesExercises
  | packagesExercises | transactionsExercises => .exercises
  | contractTypesContracts | exercisesContract | transactionsCreatedContracts
  | transactionsArchivedContracts => .contracts
  | exercisesExerciseType => .exerciseTypes
  | exercisesEvent | transactionsEvents => .events
  | exercisesPackage => .packages

def cardinality : QueryEdge → Cardinality
  | contractsContractType | contractsCreatedTransaction | contractsArchivedTransaction
  | eventsTransaction | exercisesExerciseType | exercisesContractType | exercisesEvent
  | exercisesTransaction | exercisesPackage | exercisesContract => .one
  | contractsExercises | contractTypesContracts | contractTypesExercises | eventsExercises
  | exerciseTypesExercises | packagesExercises | transactionsEvents | transactionsCreatedContracts
  | transactionsArchivedContracts | transactionsExercises => .many

def nullable : QueryEdge → Bool
  | contractsArchivedTransaction | exercisesEvent | exercisesTransaction | exercisesContract => true
  | _ => false

/-- `${relation}.${edge}`. -/
def label (edge : QueryEdge) : String := edge.source.name ++ "." ++ edge.name

/-- The edge that leads back. -/
def inverse : QueryEdge → QueryEdge
  | contractsContractType => contractTypesContracts
  | contractsCreatedTransaction => transactionsCreatedContracts
  | contractsArchivedTransaction => transactionsArchivedContracts
  | contractsExercises => exercisesContract
  | contractTypesContracts => contractsContractType
  | contractTypesExercises => exercisesContractType
  | eventsTransaction => transactionsEvents
  | eventsExercises => exercisesEvent
  | exercisesExerciseType => exerciseTypesExercises
  | exercisesContractType => contractTypesExercises
  | exercisesEvent => eventsExercises
  | exercisesTransaction => transactionsExercises
  | exercisesPackage => packagesExercises
  | exercisesContract => contractsExercises
  | exerciseTypesExercises => exercisesExerciseType
  | packagesExercises => exercisesPackage
  | transactionsEvents => eventsTransaction
  | transactionsCreatedContracts => contractsCreatedTransaction
  | transactionsArchivedContracts => contractsArchivedTransaction
  | transactionsExercises => exercisesTransaction

theorem source_inverse (edge : QueryEdge) : edge.inverse.source = edge.target := by
  cases edge <;> rfl

theorem target_inverse (edge : QueryEdge) : edge.inverse.target = edge.source := by
  cases edge <;> rfl

end QueryEdge

/-- `queryRelationEdges[relation]`. -/
def queryRelationEdges : QueryRelation → List QueryEdge
  | .contracts => [.contractsContractType, .contractsCreatedTransaction, .contractsArchivedTransaction,
      .contractsExercises]
  | .contractTypes => [.contractTypesContracts, .contractTypesExercises]
  | .events => [.eventsTransaction, .eventsExercises]
  | .exercises => [.exercisesExerciseType, .exercisesContractType, .exercisesEvent,
      .exercisesTransaction, .exercisesPackage, .exercisesContract]
  | .exerciseTypes => [.exerciseTypesExercises]
  | .packages => [.packagesExercises]
  | .transactions => [.transactionsEvents, .transactionsCreatedContracts,
      .transactionsArchivedContracts, .transactionsExercises]
  | .watermark => []

theorem mem_queryRelationEdges (edge : QueryEdge) : edge ∈ queryRelationEdges edge.source := by
  cases edge <;> decide

/-- The fields of a relation by what they hold. -/
structure QueryRelationMetadata where
  fields : List String
  uniqueKeys : List (List String)
  stableOrder : List String
  orderFields : List String
  groupFields : List String
  numericFields : List String := []
  arrayFields : List String := []
  dateFields : List String := []
  binaryFields : List String := []
  booleanFields : List String := []
  nullableFields : List String := []
  stringFields : List String := []
  jsonFields : List String := []
  bucketFields : List String := []

def queryRelationMetadata : QueryRelation → QueryRelationMetadata
  | .contracts => {
      fields := ["contractId", "templateId", "packageId", "payload", "witnesses", "createdEventOffset",
        "createdAt", "archivedEventOffset", "archivedAt", "active"]
      uniqueKeys := [["contractId"]]
      stableOrder := ["contractId"]
      orderFields := ["contractId", "createdEventOffset", "createdAt", "archivedEventOffset",
        "archivedAt"]
      groupFields := ["contractId", "createdEventOffset", "createdAt", "archivedEventOffset",
        "archivedAt", "witnesses"]
      numericFields := ["createdEventOffset", "archivedEventOffset"]
      arrayFields := ["witnesses"]
      dateFields := ["createdAt", "archivedAt"]
      booleanFields := ["active"]
      nullableFields := ["packageId", "createdAt", "archivedEventOffset", "archivedAt"]
      stringFields := ["contractId", "packageId"]
      jsonFields := ["payload"] }
  | .contractTypes =>
      let fields := ["pk", "payloadType", "aliases", "packageName", "moduleName", "entityName",
        "templateFqn"]
      { fields
        uniqueKeys := [["pk"]]
        stableOrder := ["pk"]
        orderFields := fields
        groupFields := fields
        numericFields := ["pk"]
        arrayFields := ["aliases"]
        stringFields := ["payloadType", "packageName", "moduleName", "entityName", "templateFqn"] }
  | .events =>
      let fields := ["pk", "txIx", "eventId", "type"]
      { fields
        uniqueKeys := [["pk"]]
        stableOrder := ["pk"]
        orderFields := fields
        groupFields := fields
        numericFields := ["pk", "txIx"]
        stringFields := ["eventId", "type"] }
  | .exercises =>
      let fields := ["tpePk", "contractTpePk", "exerciseEventPk", "exercisedAtIx", "contractId",
        "argument", "result", "redactionId", "packagePk", "controllers", "lastDescendantNodeId",
        "witnesses"]
      { fields
        uniqueKeys := []
        stableOrder := ["tpePk", "contractTpePk", "exerciseEventPk", "contractId"]
        orderFields := fields
        groupFields := fields
        numericFields := ["tpePk", "contractTpePk", "exerciseEventPk", "exercisedAtIx", "packagePk",
          "lastDescendantNodeId"]
        arrayFields := ["controllers", "witnesses"]
        nullableFields := ["exerciseEventPk", "exercisedAtIx", "redactionId"]
        stringFields := ["contractId", "redactionId"]
        jsonFields := ["argument", "result"] }
  | .exerciseTypes =>
      let fields := ["pk", "choice", "consuming", "aliases", "packageName", "moduleName", "entityName",
        "templateFqn", "choiceFqn"]
      { fields
        uniqueKeys := [["pk"]]
        stableOrder := ["pk"]
        orderFields := fields
        groupFields := fields
        numericFields := ["pk"]
        arrayFields := ["aliases"]
        booleanFields := ["consuming"]
        stringFields := ["choice", "packageName", "moduleName", "entityName", "templateFqn",
          "choiceFqn"] }
  | .packages =>
      let fields := ["pk", "name", "version", "id"]
      { fields
        uniqueKeys := [["pk"], ["id"]]
        stableOrder := ["pk"]
        orderFields := fields
        groupFields := fields
        numericFields := ["pk"]
        stringFields := ["name", "version", "id"] }
  | .transactions =>
      let fields := ["ix", "offset", "transactionId", "effectiveAt", "workflowId", "domainId",
        "traceContext", "externalTransactionHash", "paidTrafficCost"]
      { fields
        uniqueKeys := [["ix"], ["offset"]]
        stableOrder := ["ix"]
        orderFields := fields
        groupFields := fields
        numericFields := ["ix", "offset", "paidTrafficCost"]
        dateFields := ["effectiveAt"]
        binaryFields := ["externalTransactionHash"]
        nullableFields := ["transactionId", "effectiveAt", "workflowId", "domainId", "traceContext",
          "externalTransactionHash", "paidTrafficCost"]
        stringFields := ["transactionId", "workflowId", "domainId"]
        jsonFields := ["traceContext"]
        bucketFields := ["effectiveAt"] }
  | .watermark =>
      let fields := ["singleton", "ix", "offset", "instanceId"]
      { fields
        uniqueKeys := [["singleton"]]
        stableOrder := ["singleton"]
        orderFields := fields
        groupFields := fields
        numericFields := ["ix", "offset"]
        booleanFields := ["singleton"]
        nullableFields := ["ix", "offset", "instanceId"]
        stringFields := ["instanceId"] }

end CantonSdk.Query.Canonical
