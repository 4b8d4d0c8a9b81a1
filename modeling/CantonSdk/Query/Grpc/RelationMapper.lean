import CantonSdk.Base.KeyedMap
import CantonSdk.Query.Canonical.PublicIdentity
import CantonSdk.Query.Grpc.LedgerApi

/-!
# Mapping transactions and active contracts to rows

`mapGrpcQueryRelationFragment` orders the events of a history by offset and node id, folds them into
contracts, creations and exercises, and then lays the active-contract set over the result. Types and
packages get public keys; nothing here looks at package metadata.
-/

set_option linter.all false

namespace CantonSdk.Query.Grpc

open CantonSdk.Base CantonSdk.Query.Canonical

/-! ### Rows and identities -/

structure ContractRow where
  contractId : String
  templateId : Identifier
  packageId : String
  payload : QueryValue
  witnesses : List String
  createdEventOffset : String
  createdAt : Int
  archivedEventOffset : Option String
  archivedAt : Option Int
  active : Bool
  deriving DecidableEq

structure TransactionRow where
  ix : String
  offset : String
  transactionId : String
  effectiveAt : Int
  workflowId : Option String
  domainId : Option String
  traceContext : Option QueryValue
  externalTransactionHash : Option (List UInt8)
  paidTrafficCost : Option String
  deriving DecidableEq

structure EventRow where
  pk : String
  txIx : String
  eventId : String
  type : String
  deriving DecidableEq

structure ExerciseRow where
  tpePk : String
  contractTpePk : String
  exerciseEventPk : Option String
  exercisedAtIx : Option String
  contractId : String
  argument : QueryValue
  result : QueryValue
  redactionId : Option String
  packagePk : String
  controllers : List String
  lastDescendantNodeId : String
  witnesses : List String
  deriving DecidableEq

structure GrpcQueryTypeIdentity where
  pk : String
  templateId : Identifier
  packageId : String
  packageName : Option String
  /-- The choice of an exercise type, and whether it consumes. -/
  choice : Option (String × Bool)
  deriving DecidableEq

structure GrpcQueryPackageIdentity where
  pk : String
  id : String
  deriving DecidableEq

structure GrpcQueryCreationIdentity where
  contractId : String
  offset : String
  templateId : Identifier
  creationPackageId : String
  representativePackageId : Option String
  packageName : String
  payload : QueryValue
  witnesses : List String
  createdAt : Int
  deriving DecidableEq

structure GrpcActiveContractIdentity where
  contractId : String
  synchronizerId : String
  reassignmentCounter : String
  activationOffset : String
  activationNodeId : Int
  deriving DecidableEq

structure GrpcQueryRelationFragment where
  contracts : List ContractRow
  transactions : List TransactionRow
  events : List EventRow
  exercises : List ExerciseRow
  typeIdentities : List GrpcQueryTypeIdentity
  packageIdentities : List GrpcQueryPackageIdentity
  creationIdentities : List GrpcQueryCreationIdentity
  activeContractIdentities : List GrpcActiveContractIdentity
  deriving DecidableEq

/-! ### Checks -/

def validation (message : String) : QueryError := .validation ("gRPC query " ++ message)

def validNodeId (value : Int) (name : String) : Checked Int :=
  if value < 0 ∨ value > 9007199254740991 then .error (invalid name) else .ok value

def validOffset (value name : String) : Checked String :=
  if ¬ isCanonicalDecimal value ∨ value = "0" then .error (invalid name)
  else if decimalValue value > 9223372036854775807 then
    .error (validation (name ++ " is outside the int64 range"))
  else .ok value

def signedInt64 (value name : String) : Checked String :=
  match signedDecimal value with
  | none => .error (invalid name)
  | some n =>
      if n < -9223372036854775808 ∨ n > 9223372036854775807 then
        .error (validation (name ++ " is outside the int64 range"))
      else .ok value

def uint64 (value name : String) : Checked String :=
  if ¬ isCanonicalDecimal value then .error (invalid name)
  else if decimalValue value > 18446744073709551615 then
    .error (validation (name ++ " is outside the uint64 range"))
  else .ok value

/-- `compareOffset`, on offsets that have been checked. -/
def compareOffset (left right : String) : Ordering := compare (decimalValue left) (decimalValue right)

instance compareOffset_trans : Std.TransCmp compareOffset :=
  compareKey_trans compare decimalValue

/-- `timestamp` and `requiredTimestamp`, in milliseconds. -/
def requiredTimestamp (value : Option Timestamp) (name : String) : Checked Int :=
  match value with
  | none => .error (validation (name ++ " is missing"))
  | some value =>
      match signedDecimal value.seconds with
      | none => .error (invalid name)
      | some seconds =>
          if value.nanos < 0 ∨ value.nanos > 999999999 then .error (invalid name)
          else
            let milliseconds := seconds * 1000 + value.nanos / 1000000
            if milliseconds < -62135596800000 ∨ milliseconds > 253402300799999 then
              .error (validation (name ++ " is outside the Ledger API range"))
            else .ok milliseconds

def requiredTemplate (template : Option Identifier) (name : String) : Checked Identifier :=
  match template with
  | none => .error (validation (name ++ " is missing"))
  | some template => do
      let _ ← validPackageIdString template.packageId (name ++ " package id")
      let _ ← validDottedNameString template.moduleName (name ++ " module name")
      let _ ← validDottedNameString template.entityName (name ++ " entity name")
      return template

/-- `immutableStrings`: the distinct parties in code-unit order. -/
def immutableStrings (values : List String) (name : String) (required : Bool) : Checked (List String) :=
  if required ∧ values = [] then .error (validation (name ++ " is missing"))
  else do
    let parties ← values.mapM validPartyId
    return sortBy compareText parties.dedup

def nullableString (value : String) : Option String := if value.isEmpty then none else some value

/-- The public key of an identity. The key registry maps every identity of the input to this. -/
def publicKey (identity : String) : Checked String :=
  match canonicalPublicNumericIdentity identity with
  | none => .error (.range "Canonical public identity exceeds 43690 UTF-8 bytes")
  | some key => .ok key

/-- Semantic identities frame their parts with this. -/
def nul : String := "\x00"

def contractIdentity (template : Identifier) : String :=
  "contract-type" ++ nul ++ template.packageId ++ nul ++ template.moduleName ++ nul
    ++ template.entityName

def packageIdentity (id : String) : String := "package" ++ nul ++ id

def exerciseIdentity (template : Identifier) (choice : String) (consuming : Bool) : String :=
  "exercise-type" ++ nul ++ template.packageId ++ nul ++ template.moduleName ++ nul
    ++ template.entityName ++ nul ++ choice ++ nul ++ toString consuming

/-! ### Events -/

section Mapping

variable (locale : Collation)

/-- A created or an exercised event. -/
inductive LedgerEvent where
  | created (event : CreatedEvent)
  | exercised (event : ExercisedEvent)

namespace LedgerEvent

def offset : LedgerEvent → String
  | created event => event.offset
  | exercised event => event.offset

def nodeId : LedgerEvent → Int
  | created event => event.nodeId
  | exercised event => event.nodeId

def kind : LedgerEvent → String
  | created _ => "created"
  | exercised _ => "exercised"

def contractId : LedgerEvent → String
  | created event => event.contractId
  | exercised event => event.contractId

def templateId : LedgerEvent → Option Identifier
  | created event => event.templateId
  | exercised event => event.templateId

end LedgerEvent

def eventIdentity (event : LedgerEvent) : String :=
  "event" ++ nul ++ event.offset ++ nul ++ toString event.nodeId

def eventId (event : LedgerEvent) : String := event.offset ++ ":" ++ toString event.nodeId

structure PendingEvent where
  transaction : TransactionHeader
  event : LedgerEvent

def exerciseOwner (event : ExercisedEvent) : Checked Identifier :=
  match event.interfaceId with
  | none => requiredTemplate event.templateId "exercise template"
  | some interfaceId => requiredTemplate (some interfaceId) "exercise interface"

def creationDescriptor (event : CreatedEvent) (offset : String) : Checked GrpcQueryCreationIdentity := do
  let _ ← validOffset offset "created event offset"
  let _ ← validNodeId event.nodeId "created node id"
  let _ ← validLedgerString event.contractId "created event contract id"
  guardThat (!event.packageName.isEmpty) (validation "created event package name is missing")
  let _ ← validPackageIdString event.representativePackageId "created event representative package id"
  let template ← requiredTemplate event.templateId "created event template"
  match event.createArguments with
  | none => .error (validation "created event has no create arguments")
  | some createArguments => do
      let createdAt ← requiredTimestamp event.createdAt "created event time"
      let _ ← immutableStrings event.signatories "created event signatories" true
      let _ ← immutableStrings event.observers "created event observers" false
      let payload ← mapGrpcQueryValue locale (.record createArguments)
      let witnesses ← immutableStrings event.witnessParties "created event witnesses" true
      return {
        contractId := event.contractId
        offset
        templateId := template
        creationPackageId := template.packageId
        representativePackageId := nullableString event.representativePackageId
        packageName := event.packageName
        payload
        witnesses
        createdAt }

def validatePending (transaction : TransactionHeader) (event : LedgerEvent) : Checked Unit := do
  let _ ← validOffset event.offset (event.kind ++ " event offset")
  let _ ← validNodeId event.nodeId (event.kind ++ " node id")
  guardThat (event.offset = transaction.offset)
    (validation (event.kind ++ " event offset differs from its transaction"))
  let _ ← validLedgerString event.contractId (event.kind ++ " event contract id")
  let _ ← requiredTemplate event.templateId (event.kind ++ " event template")
  match event with
  | .exercised event => do
      let _ ← exerciseOwner event
      guardThat (!event.packageName.isEmpty) (validation "exercise package name is missing")
      guardThat event.choiceArgument.isSome (validation "exercise argument is missing")
      let _ ← validNameString event.choice "exercise choice"
      let _ ← immutableStrings event.actingParties "exercise acting parties" true
      let _ ← immutableStrings event.witnessParties "exercise witnesses" true
      let _ ← validNodeId event.lastDescendantNodeId "last descendant node id"
      guardThat (event.nodeId ≤ event.lastDescendantNodeId)
        (validation "exercise last descendant node id precedes its node id")
  | .created event => do
      let _ ← creationDescriptor locale event event.offset
      return ()

def pendingEvent (transaction : TransactionHeader) (event : Event) : Checked PendingEvent :=
  let pend (event : LedgerEvent) : Checked PendingEvent := do
    validatePending locale transaction event
    return { transaction, event }
  match event with
  | .created event => pend (.created event)
  | .exercised event => pend (.exercised event)
  | .archived _ | .unset => .error (validation "history contains a non-ledger-effects event")

def validateTransaction (transaction : Transaction) : Checked Unit := do
  guardThat (!transaction.events.isEmpty) (validation "transaction has no events")
  guardThat (!transaction.synchronizerId.isEmpty)
    (validation "transaction synchronizer id is missing")
  let _ ← validLedgerString transaction.updateId "transaction update id"
  if !transaction.workflowId.isEmpty then
    let _ ← validLedgerString transaction.workflowId "transaction workflow id"
  let _ ← requiredTimestamp transaction.effectiveAt "transaction effective time"
  let _ ← requiredTimestamp transaction.recordTime "transaction record time"

/-- The loop over the ordered transactions, with the offsets seen so far. -/
def readTransactions (seenOffsets : List String) : List Transaction → Checked (List PendingEvent)
  | [] => .ok []
  | transaction :: rest => do
      let _ ← validOffset transaction.offset "transaction offset"
      validateTransaction transaction
      guardThat (transaction.offset ∉ seenOffsets)
        (validation ("has duplicate transaction offset " ++ transaction.offset))
      let events ← transaction.events.mapM (pendingEvent locale transaction.toTransactionHeader)
      let others ← readTransactions (transaction.offset :: seenOffsets) rest
      return events ++ others

/-- The loop that refuses a repeated event. -/
def checkDistinctEvents (items : List PendingEvent) : Checked Unit :=
  checkDistinct (fun item => eventIdentity item.event)
    (fun item => validation ("has duplicate event " ++ eventId item.event)) [] items

def packageIdsFor (event : LedgerEvent) : Checked (List String) := do
  let template ← requiredTemplate event.templateId "event template"
  match event with
  | .created event =>
      return template.packageId ::
        (if event.representativePackageId.isEmpty then [] else [event.representativePackageId])
  | .exercised event => do
      let owner ← exerciseOwner event
      return if owner.packageId = template.packageId then [template.packageId]
        else [template.packageId, owner.packageId]

def identitiesFor (event : LedgerEvent) : Checked (List String) := do
  let template ← requiredTemplate event.templateId "event template"
  let packageIds ← packageIdsFor event
  let shared := eventIdentity event :: contractIdentity template :: packageIds.map packageIdentity
  match event with
  | .created _ => return shared
  | .exercised event => do
      let owner ← exerciseOwner event
      return shared ++ [exerciseIdentity owner event.choice event.consuming]

/-- Building the key registry throws when an identity is too long. -/
def keyRegistry (events : List LedgerEvent) : Checked Unit :=
  checkAll (fun event => do
    let identities ← identitiesFor event
    checkAll (fun identity => do let _ ← publicKey identity) identities) events

def typeIdentityRows (event : LedgerEvent) : Checked (List GrpcQueryTypeIdentity) := do
  let template ← requiredTemplate event.templateId "event template"
  let pk ← publicKey (contractIdentity template)
  match event with
  | .created event =>
      return [⟨pk, template, template.packageId, some event.packageName, none⟩]
  | .exercised event => do
      let owner ← exerciseOwner event
      let exercisePk ← publicKey (exerciseIdentity owner event.choice event.consuming)
      let ownerName := if event.interfaceId.isNone then some event.packageName else none
      return [
        ⟨pk, template, template.packageId, some event.packageName, none⟩,
        ⟨exercisePk, owner, owner.packageId, ownerName, some (event.choice, event.consuming)⟩]

def mapTransaction (transaction : TransactionHeader) : Checked TransactionRow := do
  let effectiveAt ← requiredTimestamp transaction.effectiveAt "transaction effective time"
  let paidTrafficCost ← transaction.paidTrafficCost.mapM (signedInt64 · "paid traffic cost")
  return {
    ix := transaction.offset
    offset := transaction.offset
    transactionId := transaction.updateId
    effectiveAt
    workflowId := nullableString transaction.workflowId
    domainId := none
    traceContext := transaction.traceContext
    externalTransactionHash := transaction.transactionHash.or transaction.externalTransactionHash
    paidTrafficCost }

def mapEvent (item : PendingEvent) : Checked EventRow := do
  let pk ← publicKey (eventId item.event)
  return { pk, txIx := item.transaction.offset, eventId := eventId item.event, type := item.event.kind }

/-- The order of the history: offset, then node id. -/
def comparePending : PendingEvent → PendingEvent → Ordering :=
  compareLex (compareKey compareOffset fun item => item.transaction.offset)
    (compareKey compare fun item => item.event.nodeId)

instance comparePending_trans : Std.TransCmp comparePending :=
  inferInstanceAs (Std.TransCmp (compareLex _ _))

/-! ### Contracts -/

/-- The maps and the list that the fold over the history builds. -/
structure MapperState where
  contracts : KeyedMap String ContractRow
  creations : KeyedMap String GrpcQueryCreationIdentity
  exerciseRows : List ExerciseRow

def MapperState.empty : MapperState := ⟨.empty, .empty, []⟩

/-- The row of a contract that has just been created. -/
def createdRow (creation : GrpcQueryCreationIdentity) : ContractRow where
  contractId := creation.contractId
  templateId := creation.templateId
  packageId := creation.creationPackageId
  payload := creation.payload
  witnesses := creation.witnesses
  createdEventOffset := creation.offset
  createdAt := creation.createdAt
  archivedEventOffset := none
  archivedAt := none
  active := true

theorem createdRow_contractId {creation : GrpcQueryCreationIdentity} :
    (createdRow creation).contractId = creation.contractId := rfl

def addCreatedContract (s : MapperState) (event : CreatedEvent) (offset : String) :
    Checked MapperState := do
  let creation ← creationDescriptor locale event offset
  guardThat (!s.contracts.has event.contractId)
    (validation ("has duplicate contract creation " ++ event.contractId))
  return { s with
    contracts := s.contracts.set event.contractId (createdRow creation)
    creations := s.creations.set event.contractId creation }

/-- The row of an exercise on a contract, or on none that the history created. -/
def mapExercise (transaction : TransactionHeader) (event : ExercisedEvent) (target : Option ContractRow) :
    Checked ExerciseRow := do
  let template ← requiredTemplate event.templateId "exercise template"
  let owner ← exerciseOwner event
  let tpePk ← publicKey (exerciseIdentity owner event.choice event.consuming)
  let contractTpePk ← publicKey (contractIdentity ((target.map ContractRow.templateId).getD template))
  let exerciseEventPk ← publicKey (eventId (.exercised event))
  match event.choiceArgument with
  | none => .error (validation "exercise argument is missing")
  | some choiceArgument => do
      let argument ← mapGrpcQueryValue locale choiceArgument
      let result ← event.exerciseResult.mapM (mapGrpcQueryValue locale)
      let packagePk ← publicKey template.packageId
      let controllers ← immutableStrings event.actingParties "exercise acting parties" true
      let lastDescendantNodeId ← validNodeId event.lastDescendantNodeId "last descendant node id"
      let witnesses ← immutableStrings event.witnessParties "exercise witnesses" true
      return {
        tpePk
        contractTpePk
        exerciseEventPk := some exerciseEventPk
        exercisedAtIx := some transaction.offset
        contractId := event.contractId
        argument
        result := result.getD .null
        redactionId := none
        packagePk
        controllers
        lastDescendantNodeId := toString lastDescendantNodeId
        witnesses }

/-- The row of a contract once a consuming exercise has archived it. -/
def archivedRow (row : ContractRow) (offset : String) (archivedAt : Int) : ContractRow :=
  { row with archivedEventOffset := some offset, archivedAt := some archivedAt, active := false }

/-- The body of the loop over the ordered history. -/
def applyPending (s : MapperState) (item : PendingEvent) : Checked MapperState :=
  match item.event with
  | .created event => addCreatedContract locale s event item.transaction.offset
  | .exercised event => do
      let target := s.contracts.get event.contractId
      guardThat (target.all ContractRow.active)
        (validation ("exercise archives already archived contract " ++ event.contractId))
      let row ← mapExercise locale item.transaction event target
      let exercised := { s with exerciseRows := s.exerciseRows ++ [row] }
      match target with
      | none => return exercised
      | some target =>
          if event.consuming then do
            let archivedAt ← requiredTimestamp item.transaction.effectiveAt "transaction effective time"
            return { exercised with
              contracts := exercised.contracts.set target.contractId
                (archivedRow target item.transaction.offset archivedAt) }
          else return exercised

/-! ### Active contracts -/

structure ActiveContractEntry where
  event : CreatedEvent
  synchronizerId : String
  reassignmentCounter : String

def activeContractEntry (response : GetActiveContractsResponse) : Checked ActiveContractEntry :=
  match response with
  | .activeContract (some event) synchronizerId reassignmentCounter => do
      guardThat (!synchronizerId.isEmpty)
        (validation "ACS active contract synchronizer id is missing")
      let _ ← creationDescriptor locale event event.offset
      let reassignmentCounter ← uint64 reassignmentCounter "ACS active contract reassignment counter"
      return { event, synchronizerId, reassignmentCounter }
  | _ => .error (validation "ACS contains incomplete assigned or unassigned contract data")

/-- `${entry.event.contractId}\u0000${entry.synchronizerId}`. -/
def activationKey (entry : ActiveContractEntry) : String :=
  entry.event.contractId ++ nul ++ entry.synchronizerId

/-- The loop that refuses a repeated activation. -/
def checkDistinctActivations (entries : List ActiveContractEntry) : Checked Unit :=
  checkDistinct activationKey (fun entry => validation ("has duplicate ACS activation for "
    ++ entry.event.contractId ++ " on " ++ entry.synchronizerId)) [] entries

def activeContractEntries (responses : List GetActiveContractsResponse) :
    Checked (List ActiveContractEntry) := do
  let entries ← responses.mapM (activeContractEntry locale)
  checkDistinctActivations entries
  return entries

mutual

/-- `canonicalJson`: the fields of every object in code-unit order. -/
def canonicalJson : QueryValue → QueryValue
  | .array items => .array (canonicalJsonItems items)
  | .object fields => .object (sortBy (compareKey compareText Prod.fst) (canonicalJsonFields fields))
  | value => value

def canonicalJsonItems : List QueryValue → List QueryValue
  | [] => []
  | item :: rest => canonicalJson item :: canonicalJsonItems rest

def canonicalJsonFields : List (String × QueryValue) → List (String × QueryValue)
  | [] => []
  | (key, value) :: rest => (key, canonicalJson value) :: canonicalJsonFields rest

end

def canonicalCreationFacts (value : GrpcQueryCreationIdentity) : String :=
  stringify (.object [
    ("contractId", .text value.contractId),
    ("templateId", .object [
      ("packageId", .text value.templateId.packageId),
      ("moduleName", .text value.templateId.moduleName),
      ("entityName", .text value.templateId.entityName)]),
    ("creationPackageId", .text value.creationPackageId),
    ("representativePackageId", (value.representativePackageId.map QueryValue.text).getD .null),
    ("createdAt", .text (toISOString value.createdAt)),
    ("payload", canonicalJson value.payload)])

def compareActivation : ActiveContractEntry → ActiveContractEntry → Ordering :=
  compareLex
    (compareLex (compareKey compare fun entry => decimalValue entry.reassignmentCounter)
      (compareKey compareOffset fun entry => entry.event.offset))
    (compareKey locale.localeCompare fun entry => entry.synchronizerId)

instance compareActivation_trans : Std.TransCmp (compareActivation locale) :=
  inferInstanceAs (Std.TransCmp (compareLex (compareLex _ _) _))

/-- The checks of one group of activations of a contract, and the witnesses it ends up with. -/
def reconcileWitnesses (contractId : String) (existing : Option ContractRow)
    (historical : Option GrpcQueryCreationIdentity) (descriptors : List GrpcQueryCreationIdentity) :
    Checked (List String) := do
  let facts := (descriptors.head?.map canonicalCreationFacts).getD ""
  guardThat (descriptors.all fun descriptor => canonicalCreationFacts descriptor = facts)
    (validation ("ACS conflicts within activations for contract " ++ contractId))
  guardThat (existing.all ContractRow.active)
    (validation ("ACS contains archived contract " ++ contractId))
  guardThat (historical.all fun creation => canonicalCreationFacts creation = facts)
    (validation ("ACS conflicts with history for contract " ++ contractId))
  immutableStrings
    ((historical.map GrpcQueryCreationIdentity.witnesses).getD []
      ++ descriptors.flatMap GrpcQueryCreationIdentity.witnesses)
    "created event witnesses" true

/-- A contract that the history did not create is created by its first activation. -/
def addRepresentative (s : MapperState) (contractId : String) (group : List ActiveContractEntry) :
    Checked MapperState :=
  match s.contracts.get contractId, sortBy (compareActivation locale) group with
  | none, representative :: _ =>
      addCreatedContract locale s representative.event representative.event.offset
  | _, _ => .ok s

def setWitnesses (s : MapperState) (contractId : String) (witnesses : List String) : MapperState :=
  match s.contracts.get contractId, s.creations.get contractId with
  | some row, some creation =>
      { s with
        contracts := s.contracts.set contractId { row with witnesses }
        creations := s.creations.set contractId { creation with witnesses } }
  | _, _ => s

/-- The body of the loop over the groups of activations. -/
def reconcileGroup (s : MapperState) (contractId : String) (group : List ActiveContractEntry) :
    Checked MapperState := do
  let descriptors ← group.mapM fun entry => creationDescriptor locale entry.event entry.event.offset
  let witnesses ← reconcileWitnesses contractId (s.contracts.get contractId)
    (s.creations.get contractId) descriptors
  let added ← addRepresentative locale s contractId group
  return setWitnesses added contractId witnesses

def reconcileActiveContracts (s : MapperState) (entries : List ActiveContractEntry) :
    Checked MapperState :=
  (KeyedMap.groupBy (fun entry => entry.event.contractId) entries).entries.foldlM
    (fun s group => reconcileGroup locale s group.1 group.2) s

/-! ### The fragment -/

/-- Each key with the last of its rows, in the order of the keys. -/
def sortedTypeIdentities (rows : List GrpcQueryTypeIdentity) : List GrpcQueryTypeIdentity :=
  sortBy (compareKey locale.localeCompare GrpcQueryTypeIdentity.pk)
    (KeyedMap.ofEntries (rows.map fun row => (row.pk, row))).values

def sortedPackageIdentities (ids : List String) : Checked (List GrpcQueryPackageIdentity) :=
  (sortBy compareText ids.dedup).mapM fun id => do return { pk := ← publicKey id, id }

def compareExercise : ExerciseRow → ExerciseRow → Ordering :=
  compareLex
    (compareLex (compareKey compareOffset fun row => row.exercisedAtIx.getD "1")
      (compareKey locale.localeCompare fun row => row.exerciseEventPk.getD ""))
    (compareKey locale.localeCompare fun row => row.contractId)

instance compareExercise_trans : Std.TransCmp (compareExercise locale) :=
  inferInstanceAs (Std.TransCmp (compareLex (compareLex _ _) _))

def activeContractIdentity (entry : ActiveContractEntry) : GrpcActiveContractIdentity where
  contractId := entry.event.contractId
  synchronizerId := entry.synchronizerId
  reassignmentCounter := entry.reassignmentCounter
  activationOffset := entry.event.offset
  activationNodeId := entry.event.nodeId

def compareActiveIdentity : GrpcActiveContractIdentity → GrpcActiveContractIdentity → Ordering :=
  compareLex (compareKey locale.localeCompare fun identity => identity.contractId)
    (compareKey locale.localeCompare fun identity => identity.synchronizerId)

instance compareActiveIdentity_trans : Std.TransCmp (compareActiveIdentity locale) :=
  inferInstanceAs (Std.TransCmp (compareLex _ _))

/-- What `mapGrpcQueryRelationFragment` has read and checked before it builds any row. -/
structure MapperInput where
  transactions : List Transaction
  activeEntries : List ActiveContractEntry
  /-- The events of the history, in its order. -/
  pending : List PendingEvent

def readInput (source : List Transaction) (activeContracts : List GetActiveContractsResponse) :
    Checked MapperInput := do
  checkAll (fun transaction => do let _ ← validOffset transaction.offset "transaction offset") source
  let transactions :=
    sortBy (compareKey compareOffset fun transaction => transaction.offset) source
  let activeEntries ← activeContractEntries locale activeContracts
  let pending ← readTransactions locale [] transactions
  checkDistinctEvents pending
  keyRegistry (pending.map PendingEvent.event
    ++ activeEntries.map fun entry => LedgerEvent.created entry.event)
  return { transactions, activeEntries, pending := sortBy comparePending pending }

/-- `mapGrpcQueryRelationFragment`. -/
def mapGrpcQueryRelationFragment (source : List Transaction)
    (activeContracts : List GetActiveContractsResponse) : Checked GrpcQueryRelationFragment := do
  let input ← readInput locale source activeContracts
  let events := input.pending.map PendingEvent.event
    ++ input.activeEntries.map fun entry => LedgerEvent.created entry.event
  let transactions ← input.transactions.mapM fun transaction =>
    mapTransaction transaction.toTransactionHeader
  let eventRows ← input.pending.mapM mapEvent
  let history ← input.pending.foldlM (applyPending locale) .empty
  let reconciled ← reconcileActiveContracts locale history input.activeEntries
  let typeRows ← events.mapM typeIdentityRows
  let packageIds ← events.mapM packageIdsFor
  let packageIdentities ← sortedPackageIdentities packageIds.flatten
  return {
    contracts := sortBy (compareKey locale.localeCompare ContractRow.contractId)
      reconciled.contracts.values
    transactions
    events := eventRows
    exercises := sortBy (compareExercise locale) reconciled.exerciseRows
    typeIdentities := sortedTypeIdentities locale typeRows.flatten
    packageIdentities
    creationIdentities := sortBy
      (compareKey locale.localeCompare GrpcQueryCreationIdentity.contractId)
      reconciled.creations.values
    activeContractIdentities := sortBy (compareActiveIdentity locale)
      (input.activeEntries.map activeContractIdentity) }

end Mapping

end CantonSdk.Query.Grpc
