import CantonSdk.Query.Grpc.ValueMapper

/-!
# Ledger API messages

The fields of the generated messages that the relation mapper reads.
-/

set_option linter.all false

namespace CantonSdk.Query.Grpc

open CantonSdk.Query.Canonical

structure Identifier where
  packageId : String
  moduleName : String
  entityName : String
  deriving DecidableEq

structure Timestamp where
  seconds : String
  nanos : Int
  deriving DecidableEq

structure CreatedEvent where
  offset : String
  nodeId : Int
  contractId : String
  templateId : Option Identifier
  packageName : String
  representativePackageId : String
  createArguments : Option (List (String × Option Value))
  createdAt : Option Timestamp
  signatories : List String
  observers : List String
  witnessParties : List String

structure ExercisedEvent where
  offset : String
  nodeId : Int
  contractId : String
  templateId : Option Identifier
  interfaceId : Option Identifier
  packageName : String
  choice : String
  choiceArgument : Option Value
  exerciseResult : Option Value
  consuming : Bool
  actingParties : List String
  witnessParties : List String
  lastDescendantNodeId : Int

/-- The cases of `Event.event`; a ledger-effects transaction holds only the first two. -/
inductive Event where
  | created (event : CreatedEvent)
  | exercised (event : ExercisedEvent)
  | archived (contractId : String)
  | unset

/-- A transaction without its events. -/
structure TransactionHeader where
  updateId : String
  offset : String
  synchronizerId : String
  workflowId : String
  effectiveAt : Option Timestamp
  recordTime : Option Timestamp
  traceContext : Option QueryValue
  externalTransactionHash : Option (List UInt8)
  transactionHash : Option (List UInt8)
  paidTrafficCost : Option String

structure Transaction extends TransactionHeader where
  events : List Event

/-- The cases of `GetActiveContractsResponse.contractEntry`. -/
inductive GetActiveContractsResponse where
  | activeContract (createdEvent : Option CreatedEvent) (synchronizerId reassignmentCounter : String)
  | incompleteAssigned
  | incompleteUnassigned
  | unset

/-! ### A token

Messages that later modules try their results on. -/

def tokenTemplate : Identifier := ⟨"pkg", "Main", "Token"⟩

/-- A token created at this place of the ledger. -/
def tokenCreated (offset : String) (nodeId : Int) (contractId : String) : CreatedEvent where
  offset := offset
  nodeId := nodeId
  contractId := contractId
  templateId := some tokenTemplate
  packageName := "tokens"
  representativePackageId := "pkg"
  createArguments := some []
  createdAt := some ⟨"0", 0⟩
  signatories := ["alice"]
  observers := []
  witnessParties := ["alice"]

/-- The exercise that archives a token. -/
def tokenArchived (offset : String) (nodeId : Int) (contractId : String) : ExercisedEvent where
  offset := offset
  nodeId := nodeId
  contractId := contractId
  templateId := some tokenTemplate
  interfaceId := none
  packageName := "tokens"
  choice := "Archive"
  choiceArgument := some (.record [])
  exerciseResult := none
  consuming := true
  actingParties := ["alice"]
  witnessParties := ["alice"]
  lastDescendantNodeId := nodeId

def tokenTransaction (offset : String) (events : List Event) : Transaction where
  updateId := "update-" ++ offset
  offset := offset
  synchronizerId := "global"
  workflowId := ""
  effectiveAt := some ⟨"0", 0⟩
  recordTime := some ⟨"0", 0⟩
  traceContext := none
  externalTransactionHash := none
  transactionHash := none
  paidTrafficCost := none
  events := events

/-- A token that is created and archived. -/
def archivedToken : List Transaction :=
  [tokenTransaction "3" [.created (tokenCreated "3" 0 "c1")],
    tokenTransaction "5" [.exercised (tokenArchived "5" 0 "c1")]]

def tokenActive (offset contractId : String) : GetActiveContractsResponse :=
  .activeContract (some (tokenCreated offset 0 contractId)) "global" "0"

end CantonSdk.Query.Grpc
