import CantonSdk.Base.Text
import CantonSdk.Debugger.ContractIds

/-!
# The replay environment

`buildOrThrowAsync` gathers the contracts that a replay of one transaction can need: those the transaction
created, those it exercised, and whatever contract ids occur in the entrypoint's argument or in the payload
of a contract that has been gathered. The two ledger services are parameters: the contract service may
reject, which the builder takes for no answer, and a rejection by the event query service is the builder's.
-/

set_option linter.all false

namespace CantonSdk.Debugger

open CantonSdk.Base

structure CreatedEvent where
  contractId : Option String
  templateId : Option ReplayIdentifier
  createArguments : Option LedgerValue

structure ExercisedEvent where
  contractId : Option String
  templateId : Option ReplayIdentifier
  choice : Option String
  choiceArgument : Option LedgerValue

structure ArchivedEvent where
  contractId : Option String
  templateId : Option ReplayIdentifier

inductive ReplayTransactionEvent
  | created (event : CreatedEvent)
  | exercised (event : ExercisedEvent)
  | archived (event : ArchivedEvent)
  | other

inductive ReplayEntrypointKind
  | create | exercise
  deriving DecidableEq

structure ReplayEntrypoint (α : Type) where
  kind : ReplayEntrypointKind
  templateId : Option ReplayIdentifier
  contractId : Option String
  choice : Option String
  argument : α

/-- `IReplayTransactionSnapshot`; a list of parties that is missing is empty. -/
structure ReplayTransactionSnapshot where
  offset : String
  updateId : Option String
  actAs : List String
  readAs : List String
  events : List ReplayTransactionEvent
  entrypoint : ReplayEntrypoint (Option LedgerValue)

structure CreatedHistory where
  contractId : Option String
  templateId : Option ReplayIdentifier
  payload : HostValue
  rawEvent : CreatedEvent

structure ArchivedHistory where
  contractId : Option String
  templateId : Option ReplayIdentifier
  rawEvent : ArchivedEvent

structure HydratedReplayContract where
  contractId : String
  templateId : Option ReplayIdentifier
  payload : HostValue
  rawCreatedEvent : CreatedEvent
  synchronizerId : Option String
  created : CreatedHistory
  archived : Option ArchivedHistory

structure LedgerReplayEnvironment where
  offset : String
  updateId : Option String
  actAs : List String
  readAs : List String
  entrypoint : ReplayEntrypoint HostValue
  contracts : KeyedMap String HydratedReplayContract
  packageIds : List String

inductive ReplayError
  /-- `ReplayStateHydrationException`. -/
  | hydration (message : String)
  /-- What a ledger service rejected with. -/
  | service (message : String)
  /-- The end of a bounded run of the builder. -/
  | outOfFuel
  deriving DecidableEq

/-! ## The ledger services -/

/-- `createReplayEventFormat`; every filter is a wildcard. -/
structure ReplayEventFormat where
  filtersByParty : List String
  filtersForAnyParty : Bool

def createReplayEventFormat (visibleParties : List String) : ReplayEventFormat :=
  if visibleParties.isEmpty then ⟨[], true⟩
  else ⟨(visibleParties.foldl addPending []).filter fun party => !party.isEmpty, false⟩

/-- `GetEventsByContractIdResponse`. -/
structure EventHistory where
  createdEvent : Option CreatedEvent
  synchronizerId : Option String
  archivedEvent : Option ArchivedEvent

structure ReplayServices where
  /-- The created event of the response to `getContractAsync`, by contract id and querying parties. -/
  getContract : String → List String → Except String (Option CreatedEvent)
  getEventsByContractId : String → ReplayEventFormat → Except String EventHistory

/-- The services, and the parties the builder is configured with. -/
structure ReplayDependencies where
  services : ReplayServices
  queryingParties : List String

/-! ## The builder -/

def getQueryingParties (dependencies : ReplayDependencies) (snapshot : ReplayTransactionSnapshot) :
    List String :=
  if dependencies.queryingParties.isEmpty then (snapshot.actAs ++ snapshot.readAs).foldl addPending []
  else dependencies.queryingParties.foldl addPending []

/-- `addPackageId`. -/
def addPackageId (packageIds : List String) (packageId : Option String) : List String :=
  match packageId with
  | some packageId => if packageId.isEmpty then packageIds else addPending packageIds packageId
  | none => packageIds

def templatePackage (templateId : Option ReplayIdentifier) : Option String :=
  templateId.bind ReplayIdentifier.packageId

def normalizeOptional (value : Option LedgerValue) : HostValue :=
  match value with
  | some value => normalizeReplayLedgerValue value
  | none => .undefined

/-- The payload of a created event. -/
def eventPayload (event : CreatedEvent) : HostValue :=
  attachReplayRecordId (normalizeOptional event.createArguments) event.templateId

/-- The ids that `addReferencedContractIds` adds for a value. -/
def referencedContractIds (value : HostValue) : List String :=
  (collectReplayLedgerContractIds value).filter fun contractId => !contractId.isEmpty

/-- `getVisibleCreatedContracts`, of one event. -/
def visibleCreatedContract (event : ReplayTransactionEvent) : Option HydratedReplayContract :=
  match event with
  | .created event =>
      event.contractId.map fun contractId =>
        { contractId := contractId
          templateId := event.templateId
          payload := eventPayload event
          rawCreatedEvent := event
          synchronizerId := none
          created := ⟨some contractId, event.templateId, eventPayload event, event⟩
          archived := none }
  | _ => none

def getVisibleCreatedContracts (snapshot : ReplayTransactionSnapshot) : List HydratedReplayContract :=
  snapshot.events.filterMap visibleCreatedContract

def exercisedContractId (event : ReplayTransactionEvent) : Option String :=
  match event with
  | .exercised event => event.contractId
  | _ => none

def entrypointContractId (entrypoint : ReplayEntrypoint (Option LedgerValue)) : Option String :=
  match entrypoint.kind with
  | .exercise => entrypoint.contractId
  | .create => none

def getRequiredContractIds (snapshot : ReplayTransactionSnapshot) : List String :=
  ((entrypointContractId snapshot.entrypoint).toList
    ++ snapshot.events.filterMap exercisedContractId).foldl addPending []

/-- An event that names its contract and shows its arguments. -/
def isMaterialized (event : CreatedEvent) : Bool :=
  event.contractId.isSome && event.createArguments.isSome

def rejectedByService : Except String EventHistory → Except ReplayError EventHistory
  | .ok history => .ok history
  | .error message => .error (.service message)

def couldNotHydrate (contractId : String) : ReplayError :=
  .hydration ("could not hydrate contract '" ++ contractId ++ "' from the ledger")

/-- The first of the two created events that names its contract and shows its arguments. -/
def materializedCreatedEvent (createdEvent createdHistory : Option CreatedEvent) : Option CreatedEvent :=
  (createdEvent.toList ++ createdHistory.toList).find? isMaterialized

/-- The contract of a created event, with the history that the event query service has for it. -/
def hydratedContract (contractId : String) (eventHistory : EventHistory) (materialized : CreatedEvent) :
    HydratedReplayContract :=
  let historyEvent := eventHistory.createdEvent.getD materialized
  { contractId := contractId
    templateId := materialized.templateId
    payload := eventPayload materialized
    rawCreatedEvent := materialized
    synchronizerId := eventHistory.synchronizerId
    created := ⟨historyEvent.contractId, historyEvent.templateId, eventPayload historyEvent, historyEvent⟩
    archived := eventHistory.archivedEvent.map fun event => ⟨event.contractId, event.templateId, event⟩ }

section Builder

variable (dependencies : ReplayDependencies) (snapshot : ReplayTransactionSnapshot)

/-- The created event that the contract service shows, if it answers. -/
def contractCreatedEvent (contractId : String) : Option CreatedEvent :=
  (dependencies.services.getContract contractId (getQueryingParties dependencies snapshot)).toOption.join

def contractEventHistory (contractId : String) : Except ReplayError EventHistory :=
  rejectedByService (dependencies.services.getEventsByContractId contractId
    (createReplayEventFormat (getQueryingParties dependencies snapshot)))

/-- `hydrateContractOrThrowAsync`. An event without arguments is not materialized, so the source's second
check cannot fail. -/
def hydrateContract (contractId : String) : Except ReplayError HydratedReplayContract := do
  let eventHistory ← contractEventHistory dependencies snapshot contractId
  match materializedCreatedEvent (contractCreatedEvent dependencies snapshot contractId)
      eventHistory.createdEvent with
  | none => .error (couldNotHydrate contractId)
  | some materialized => .ok (hydratedContract contractId eventHistory materialized)

/-- The contracts, the ids that are pending, and the package ids. -/
abbrev ReplayWorklist := Worklist String HydratedReplayContract (List String)

def payloadReferences (contract : HydratedReplayContract) : List String :=
  referencedContractIds contract.payload

def notePackage (contract : HydratedReplayContract) (packageIds : List String) : List String :=
  addPackageId packageIds (templatePackage contract.templateId)

/-- A contract that the transaction created is there without being fetched. -/
def addVisibleContract (w : ReplayWorklist) (contract : HydratedReplayContract) : ReplayWorklist where
  done := w.done.set contract.contractId contract
  pending := (payloadReferences contract).foldl addPending w.pending
  visited := w.visited
  notes := notePackage contract w.notes

/-- What is gathered and pending before the first contract is fetched. -/
def initialWorklist : ReplayWorklist :=
  let visible := (getVisibleCreatedContracts snapshot).foldl addVisibleContract
    { done := .empty, pending := getRequiredContractIds snapshot, visited := [], notes := [] }
  { visible with
    pending := (referencedContractIds (normalizeOptional snapshot.entrypoint.argument)).foldl addPending
      visible.pending }

/-- The outcome of a run, and the contract ids that were fetched, in order. -/
structure BuildRun where
  fetched : List String
  result : Except ReplayError LedgerReplayEnvironment

/-- `buildOrThrowAsync`, for at most `fuel` turns of its loop. -/
def buildOrThrow (fuel : Nat) : BuildRun :=
  let run := drain (hydrateContract dependencies snapshot) payloadReferences notePackage .outOfFuel fuel
    (initialWorklist snapshot)
  { fetched := run.1.visited
    result := do
      run.2
      .ok {
        offset := snapshot.offset
        updateId := snapshot.updateId
        actAs := snapshot.actAs
        readAs := snapshot.readAs
        entrypoint := {
          kind := snapshot.entrypoint.kind
          templateId := snapshot.entrypoint.templateId
          contractId := snapshot.entrypoint.contractId
          choice := snapshot.entrypoint.choice
          argument := normalizeOptional snapshot.entrypoint.argument }
        contracts := run.1.done
        packageIds := sortBy compareText
          (addPackageId run.1.notes (templatePackage snapshot.entrypoint.templateId)) } }

end Builder

end CantonSdk.Debugger
