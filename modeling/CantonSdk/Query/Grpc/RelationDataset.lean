import CantonSdk.Query.Canonical.Dataset
import CantonSdk.Query.Grpc.PackageMetadata

/-!
# The dataset of a fragment

`createGrpcQueryDataset` joins a fragment of the ledger with package metadata: types and choices get rows
with keys that follow from their names, exercises are keyed again by those, and the edges between
relations are laid down, some by public paths and some by private keys at the positions of the rows.
-/

set_option linter.all false

namespace CantonSdk.Query.Grpc

open CantonSdk.Base CantonSdk.Query.Canonical

/-! ### Rows -/

def nullable {α : Type} (value : α → QueryValue) (field : Option α) : QueryValue :=
  (field.map value).getD .null

def textArray (values : List String) : QueryValue := .array (values.map QueryValue.text)

def Identifier.toQueryValue (template : Identifier) : QueryValue :=
  .object [
    ("packageId", .text template.packageId),
    ("moduleName", .text template.moduleName),
    ("entityName", .text template.entityName)]

def ContractRow.toQueryRow (row : ContractRow) : QueryRow := [
  ("contractId", .text row.contractId),
  ("templateId", row.templateId.toQueryValue),
  ("packageId", .text row.packageId),
  ("payload", row.payload),
  ("witnesses", textArray row.witnesses),
  ("createdEventOffset", .text row.createdEventOffset),
  ("createdAt", .date row.createdAt),
  ("archivedEventOffset", nullable .text row.archivedEventOffset),
  ("archivedAt", nullable .date row.archivedAt),
  ("active", .bool row.active)]

def TransactionRow.toQueryRow (row : TransactionRow) : QueryRow := [
  ("ix", .text row.ix),
  ("offset", .text row.offset),
  ("transactionId", .text row.transactionId),
  ("effectiveAt", .date row.effectiveAt),
  ("workflowId", nullable .text row.workflowId),
  ("domainId", nullable .text row.domainId),
  ("traceContext", row.traceContext.getD .null),
  ("externalTransactionHash", nullable .bytes row.externalTransactionHash),
  ("paidTrafficCost", nullable .text row.paidTrafficCost)]

def EventRow.toQueryRow (row : EventRow) : QueryRow := [
  ("pk", .text row.pk),
  ("txIx", .text row.txIx),
  ("eventId", .text row.eventId),
  ("type", .text row.type)]

def ExerciseRow.toQueryRow (row : ExerciseRow) : QueryRow := [
  ("tpePk", .text row.tpePk),
  ("contractTpePk", .text row.contractTpePk),
  ("exerciseEventPk", nullable .text row.exerciseEventPk),
  ("exercisedAtIx", nullable .text row.exercisedAtIx),
  ("contractId", .text row.contractId),
  ("argument", row.argument),
  ("result", row.result),
  ("redactionId", nullable .text row.redactionId),
  ("packagePk", .text row.packagePk),
  ("controllers", textArray row.controllers),
  ("lastDescendantNodeId", .text row.lastDescendantNodeId),
  ("witnesses", textArray row.witnesses)]

structure PackageRow where
  pk : String
  name : String
  version : String
  id : String
  deriving DecidableEq

def PackageRow.toQueryRow (row : PackageRow) : QueryRow := [
  ("pk", .text row.pk),
  ("name", .text row.name),
  ("version", .text row.version),
  ("id", .text row.id)]

structure ContractTypeRow where
  pk : String
  payloadType : String
  aliases : List String
  packageName : String
  moduleName : String
  entityName : String
  templateFqn : String
  deriving DecidableEq

def ContractTypeRow.toQueryRow (row : ContractTypeRow) : QueryRow := [
  ("pk", .text row.pk),
  ("payloadType", .text row.payloadType),
  ("aliases", textArray row.aliases),
  ("packageName", .text row.packageName),
  ("moduleName", .text row.moduleName),
  ("entityName", .text row.entityName),
  ("templateFqn", .text row.templateFqn)]

structure ExerciseTypeRow where
  pk : String
  choice : String
  consuming : Bool
  aliases : List String
  packageName : String
  moduleName : String
  entityName : String
  templateFqn : String
  choiceFqn : String
  deriving DecidableEq

def ExerciseTypeRow.toQueryRow (row : ExerciseTypeRow) : QueryRow := [
  ("pk", .text row.pk),
  ("choice", .text row.choice),
  ("consuming", .bool row.consuming),
  ("aliases", textArray row.aliases),
  ("packageName", .text row.packageName),
  ("moduleName", .text row.moduleName),
  ("entityName", .text row.entityName),
  ("templateFqn", .text row.templateFqn),
  ("choiceFqn", .text row.choiceFqn)]

def watermarkRow (endInclusive instanceId : String) : QueryRow := [
  ("singleton", .bool true),
  ("ix", .text endInclusive),
  ("offset", .text endInclusive),
  ("instanceId", .text instanceId)]

/-! ### Types and choices -/

/-- A template or an interface with its package. -/
structure TemplateEntry where
  package : GrpcPackageMetadata
  template : GrpcPackageTemplateMetadata

namespace TemplateEntry

def identity (entry : TemplateEntry) : String :=
  templateIdentity entry.package.id entry.template.moduleName entry.template.entityName

def identifier (entry : TemplateEntry) : Identifier :=
  ⟨entry.package.id, entry.template.moduleName, entry.template.entityName⟩

end TemplateEntry

structure ChoiceEntry extends TemplateEntry where
  choice : GrpcPackageChoiceMetadata

def ChoiceEntry.identity (entry : ChoiceEntry) : String :=
  exerciseIdentity entry.identifier entry.choice.choice entry.choice.consuming

/-- `canonicalPublicNumericIdentityParts`, with its `RangeError`. -/
def publicKeyOfParts (parts : List String) : Checked String :=
  match canonicalPublicNumericIdentityParts parts with
  | none => .error (.range "Canonical public identity exceeds 43690 UTF-8 bytes")
  | some key => .ok key

def canonicalContractTypeKey (payloadType : PayloadType) (templateFqn : String) : Checked String :=
  publicKeyOfParts [payloadType.name, templateFqn]

/-- A map from the identity of each entry to its public key. -/
def publicKeyMap {α : Type} (identity : α → String) (key : α → Checked String) (entries : List α) :
    Checked (KeyedMap String String) := do
  let keyed ← entries.mapM fun entry => do return (identity entry, ← key entry)
  return KeyedMap.ofEntries keyed

def templateEntries (packages : List GrpcPackageMetadata) : List TemplateEntry :=
  packages.flatMap fun package => package.templates.map fun template => ⟨package, template⟩

def choiceEntries (templates : List TemplateEntry) : List ChoiceEntry :=
  templates.flatMap fun entry => entry.template.choices.map fun choice => ⟨entry, choice⟩

/-- The public keys that package metadata gives. -/
structure PublicKeys where
  packages : KeyedMap String String
  contractTypes : KeyedMap String String
  exerciseTypes : KeyedMap String String

def publicKeys (packages : List GrpcPackageMetadata) : Checked PublicKeys := do
  let templates := templateEntries packages
  let packageKeys ← publicKeyMap GrpcPackageMetadata.id (fun package => publicKey package.id) packages
  let contractTypeKeys ← publicKeyMap TemplateEntry.identity
    (fun entry => canonicalContractTypeKey entry.template.payloadType entry.template.templateFqn)
    templates
  let exerciseTypeKeys ← publicKeyMap ChoiceEntry.identity
    (fun entry => publicKey entry.choice.choiceFqn) (choiceEntries templates)
  return ⟨packageKeys, contractTypeKeys, exerciseTypeKeys⟩

/-- `deduplicateCanonicalRows`: the first row of each key; the others must be the same row. -/
def deduplicateCanonicalRows {α : Type} (pk : α → String) (json : α → String) (rows : List α) :
    Checked (List α) := do
  let byPk ← rows.foldlM (fun (byPk : KeyedMap String α) row =>
    match byPk.get (pk row) with
    | none => .ok (byPk.set (pk row) row)
    | some existing => do
        guardThat (decide (json existing = json row))
          (validation ("canonical public key " ++ pk row ++ " has conflicting metadata"))
        return byPk) .empty
  return byPk.values

section Dataset

variable (locale : Collation)

def compareTemplateMetadata : TemplateEntry → TemplateEntry → Ordering :=
  compareLex
    (compareLex (compareKey locale.localeCompare fun entry => entry.package.id)
      (compareKey locale.localeCompare fun entry => entry.template.moduleName))
    (compareKey locale.localeCompare fun entry => entry.template.entityName)

def compareChoiceMetadata : ChoiceEntry → ChoiceEntry → Ordering :=
  compareLex
    (compareLex (compareKey (compareTemplateMetadata locale) ChoiceEntry.toTemplateEntry)
      (compareKey locale.localeCompare fun entry => entry.choice.choice))
    (compareKey compare fun entry => entry.choice.consuming.toNat)

def packageRows (keys : PublicKeys) (packages : List GrpcPackageMetadata) : List PackageRow :=
  (sortBy (compareKey locale.localeCompare GrpcPackageMetadata.id) packages).map fun package => {
    pk := (keys.packages.get package.id).getD ""
    name := package.name
    version := package.version
    id := package.id }

def contractTypeRow (keys : PublicKeys) (entry : TemplateEntry) : ContractTypeRow where
  pk := (keys.contractTypes.get entry.identity).getD ""
  payloadType := entry.template.payloadType.name
  aliases := entry.template.aliases
  packageName := entry.package.name
  moduleName := entry.template.moduleName
  entityName := entry.template.entityName
  templateFqn := entry.template.templateFqn

def contractTypeRows (keys : PublicKeys) (templates : List TemplateEntry) :
    Checked (List ContractTypeRow) :=
  deduplicateCanonicalRows ContractTypeRow.pk (fun row => stringify (.object row.toQueryRow))
    ((sortBy (compareTemplateMetadata locale) templates).map (contractTypeRow keys))

def exerciseTypeRow (keys : PublicKeys) (entry : ChoiceEntry) : ExerciseTypeRow where
  pk := (keys.exerciseTypes.get entry.identity).getD ""
  choice := entry.choice.choice
  consuming := entry.choice.consuming
  aliases := entry.choice.aliases
  packageName := entry.package.name
  moduleName := entry.template.moduleName
  entityName := entry.template.entityName
  templateFqn := entry.template.templateFqn
  choiceFqn := entry.choice.choiceFqn

def exerciseTypeRows (keys : PublicKeys) (templates : List TemplateEntry) :
    Checked (List ExerciseTypeRow) :=
  deduplicateCanonicalRows ExerciseTypeRow.pk (fun row => stringify (.object row.toQueryRow))
    ((sortBy (compareChoiceMetadata locale) (choiceEntries templates)).map (exerciseTypeRow keys))

/-! ### Keys of exercises and contracts -/

def canonicalExerciseTypeKeyForIdentity (templates : List TemplateEntry) (keys : PublicKeys)
    (identity : Option GrpcQueryTypeIdentity) : Checked String :=
  match identity with
  | none => .error (validation "relation type identity is missing")
  | some identity =>
      match identity.choice with
      | none => .error (validation "relation exercise type identity is invalid")
      | some (choice, consuming) =>
          let template := templateIdentity identity.templateId.packageId identity.templateId.moduleName
            identity.templateId.entityName
          let key :=
            if template ∈ templates.map TemplateEntry.identity then
              keys.exerciseTypes.get (exerciseIdentity identity.templateId choice consuming)
            else none
          key.elim (.error (validation "relation type metadata is missing")) .ok

/-- The template identity that the type of a created contract is found under. -/
def GrpcQueryCreationIdentity.typeIdentity (creation : GrpcQueryCreationIdentity) : String :=
  templateIdentity creation.typePackageId creation.templateId.moduleName creation.templateId.entityName

def canonicalContractTypeKeyForExercise (templates : List TemplateEntry) (keys : PublicKeys)
    (creation : Option GrpcQueryCreationIdentity) (orphanIdentity : Option GrpcQueryTypeIdentity) :
    Checked String :=
  match creation with
  | none =>
      match orphanIdentity.filter fun identity => identity.choice.isNone with
      | none => .error (validation "orphan contract type identity is invalid")
      | some identity =>
          let template := templateIdentity identity.templateId.packageId identity.templateId.moduleName
            identity.templateId.entityName
          let key :=
            if template ∈ templates.map TemplateEntry.identity then keys.contractTypes.get template
            else none
          key.elim (.error (validation "orphan contract type metadata is missing")) .ok
  | some creation =>
      (keys.contractTypes.get creation.typeIdentity).elim
        (.error (validation ("representative contract type metadata is missing "
          ++ creation.typePackageId ++ ":" ++ creation.templateId.moduleName ++ ":"
          ++ creation.templateId.entityName)))
        .ok

def canonicalPackageKeyForId (keys : PublicKeys) (packageId : Option String) : Checked String :=
  (packageId.bind keys.packages.get).elim
    (.error (validation "relation package metadata is missing")) .ok

/-- What a fragment says about a key or a contract id; the last entry of each counts. -/
structure FragmentMaps where
  typeIdentityByOldPk : KeyedMap String GrpcQueryTypeIdentity
  packageIdByOldPk : KeyedMap String String
  creationByContract : KeyedMap String GrpcQueryCreationIdentity
  eventIdByPk : KeyedMap String String

def fragmentMaps (fragment : GrpcQueryRelationFragment) : FragmentMaps where
  typeIdentityByOldPk :=
    .ofEntries (fragment.typeIdentities.map fun identity => (identity.pk, identity))
  packageIdByOldPk := .ofEntries (fragment.packageIdentities.map fun identity => (identity.pk, identity.id))
  creationByContract :=
    .ofEntries (fragment.creationIdentities.map fun identity => (identity.contractId, identity))
  eventIdByPk := .ofEntries (fragment.events.map fun event => (event.pk, event.eventId))

def rekeyExercise (templates : List TemplateEntry) (keys : PublicKeys) (maps : FragmentMaps)
    (exercise : ExerciseRow) : Checked ExerciseRow := do
  let tpePk ← canonicalExerciseTypeKeyForIdentity templates keys
    (maps.typeIdentityByOldPk.get exercise.tpePk)
  let contractTpePk ← canonicalContractTypeKeyForExercise templates keys
    (maps.creationByContract.get exercise.contractId)
    (maps.typeIdentityByOldPk.get exercise.contractTpePk)
  let packagePk ← canonicalPackageKeyForId keys (maps.packageIdByOldPk.get exercise.packagePk)
  return { exercise with tpePk, contractTpePk, packagePk }

def contractTypeKey (keys : PublicKeys) (maps : FragmentMaps) (contract : ContractRow) :
    Checked String :=
  match maps.creationByContract.get contract.contractId with
  | none => .error (validation ("creation identity is missing " ++ contract.contractId))
  | some creation =>
      (keys.contractTypes.get creation.typeIdentity).elim
        (.error (validation ("representative contract type metadata is missing "
          ++ creation.contractId)))
        .ok

/-! ### The dataset -/

/-- The typed rows of a dataset and the keys that stand beside them. -/
structure GrpcRows where
  contracts : List ContractRow
  contractTypes : List ContractTypeRow
  events : List EventRow
  exercises : List ExerciseRow
  exerciseTypes : List ExerciseTypeRow
  packages : List PackageRow
  transactions : List TransactionRow
  /-- The contract-type key of each contract. -/
  contractKeys : List String
  /-- The event id of each exercise, where its event is known. -/
  exerciseEvents : List (Option String)
  /-- The package id of each exercise. -/
  exercisePackages : List (Option String)
  createdTransactionComplete : Bool

def uniqueKeys : QueryRelation → List (List QueryPath)
  | .contracts => [[["contractId"]]]
  | .contractTypes => [[["pk"]]]
  | .events => [[["pk"]]]
  | .exercises => [[["tpePk"], ["contractTpePk"], ["exerciseEventPk"], ["contractId"]]]
  | .exerciseTypes => [[["pk"]]]
  | .packages => [[["pk"]], [["id"]]]
  | .transactions => [[["ix"]], [["offset"]]]
  | .watermark => [[["singleton"]]]

namespace GrpcRows

variable (rows : GrpcRows)

def contractPrivateKeys : List (List QueryValue) := rows.contractKeys.map fun key => [.text key]

def contractTypePrivateKeys : List (List QueryValue) :=
  rows.contractTypes.map fun row => [.text row.pk]

def eventPrivateKeys : List (List QueryValue) := rows.events.map fun row => [.text row.eventId]

def eventTransactionPrivateKeys : List (List QueryValue) := rows.events.map fun row => [.text row.txIx]

def transactionPrivateKeys : List (List QueryValue) :=
  rows.transactions.map fun row => [.text row.offset]

def packagePrivateKeys : List (List QueryValue) := rows.packages.map fun row => [.text row.id]

def exerciseTypePrivateKeys : List (List QueryValue) :=
  rows.exerciseTypes.map fun row => [.text row.pk]

def exerciseEventPrivateKeys : List (List QueryValue) :=
  rows.exerciseEvents.map fun key => [nullable .text key]

def exerciseTransactionPrivateKeys : List (List QueryValue) :=
  rows.exercises.map fun row => [nullable .text row.exercisedAtIx]

def exercisePackagePrivateKeys : List (List QueryValue) :=
  rows.exercisePackages.map fun key => [nullable .text key]

def exerciseContractTypePrivateKeys : List (List QueryValue) :=
  rows.exercises.map fun row => [.text row.contractTpePk]

def exerciseTypePrivateKeysByExercise : List (List QueryValue) :=
  rows.exercises.map fun row => [.text row.tpePk]

def edgeKeys : QueryEdge → EdgeKeys
  | .contractsContractType => .privateKeys rows.contractPrivateKeys rows.contractTypePrivateKeys
  | .contractsCreatedTransaction => .paths [["createdEventOffset"]] [["ix"]]
  | .contractsArchivedTransaction => .paths [["archivedEventOffset"]] [["ix"]]
  | .contractsExercises => .paths [["contractId"]] [["contractId"]]
  | .contractTypesContracts => .privateKeys rows.contractTypePrivateKeys rows.contractPrivateKeys
  | .contractTypesExercises =>
      .privateKeys rows.contractTypePrivateKeys rows.exerciseContractTypePrivateKeys
  | .eventsTransaction => .privateKeys rows.eventTransactionPrivateKeys rows.transactionPrivateKeys
  | .eventsExercises => .privateKeys rows.eventPrivateKeys rows.exerciseEventPrivateKeys
  | .exercisesExerciseType =>
      .privateKeys rows.exerciseTypePrivateKeysByExercise rows.exerciseTypePrivateKeys
  | .exercisesContractType =>
      .privateKeys rows.exerciseContractTypePrivateKeys rows.contractTypePrivateKeys
  | .exercisesEvent => .privateKeys rows.exerciseEventPrivateKeys rows.eventPrivateKeys
  | .exercisesTransaction =>
      .privateKeys rows.exerciseTransactionPrivateKeys rows.transactionPrivateKeys
  | .exercisesPackage => .privateKeys rows.exercisePackagePrivateKeys rows.packagePrivateKeys
  | .exercisesContract => .paths [["contractId"]] [["contractId"]]
  | .exerciseTypesExercises =>
      .privateKeys rows.exerciseTypePrivateKeys rows.exerciseTypePrivateKeysByExercise
  | .packagesExercises => .privateKeys rows.packagePrivateKeys rows.exercisePackagePrivateKeys
  | .transactionsEvents => .privateKeys rows.transactionPrivateKeys rows.eventTransactionPrivateKeys
  | .transactionsCreatedContracts => .paths [["ix"]] [["createdEventOffset"]]
  | .transactionsArchivedContracts => .paths [["ix"]] [["archivedEventOffset"]]
  | .transactionsExercises =>
      .privateKeys rows.transactionPrivateKeys rows.exerciseTransactionPrivateKeys

/-- The argument of `createQueryDataset`. -/
def toQueryDataset (endInclusive instanceId : String) : QueryDataset where
  rows
    | .contracts => rows.contracts.map ContractRow.toQueryRow
    | .contractTypes => rows.contractTypes.map ContractTypeRow.toQueryRow
    | .events => rows.events.map EventRow.toQueryRow
    | .exercises => rows.exercises.map ExerciseRow.toQueryRow
    | .exerciseTypes => rows.exerciseTypes.map ExerciseTypeRow.toQueryRow
    | .packages => rows.packages.map PackageRow.toQueryRow
    | .transactions => rows.transactions.map TransactionRow.toQueryRow
    | .watermark => [watermarkRow endInclusive instanceId]
  edges edge := {
    complete :=
      if edge = .contractsCreatedTransaction then rows.createdTransactionComplete else true
    keys := rows.edgeKeys edge }
  uniqueKeys := uniqueKeys

end GrpcRows

/-- Whether every contract that lacks its transaction is an active one, and there is such a contract. -/
def createdTransactionIncomplete (fragment : GrpcQueryRelationFragment) : Bool :=
  let without := fragment.contracts.filter fun contract =>
    contract.createdEventOffset ∉ fragment.transactions.map TransactionRow.ix
  !without.isEmpty && without.all fun contract =>
    contract.contractId ∈ fragment.activeContractIdentities.map GrpcActiveContractIdentity.contractId

/-- The rows and keys that `createGrpcQueryDataset` builds from normalized metadata. -/
def grpcRows (fragment : GrpcQueryRelationFragment) (packages : List GrpcPackageMetadata) :
    Checked GrpcRows := do
  let templates := templateEntries packages
  let keys ← publicKeys packages
  let contractTypes ← contractTypeRows locale keys templates
  let exerciseTypes ← exerciseTypeRows locale keys templates
  let maps := fragmentMaps fragment
  let exercises ← fragment.exercises.mapM (rekeyExercise templates keys maps)
  let contractKeys ← fragment.contracts.mapM (contractTypeKey keys maps)
  return {
    contracts := fragment.contracts
    contractTypes
    events := fragment.events
    exercises
    exerciseTypes
    packages := packageRows locale keys packages
    transactions := fragment.transactions
    contractKeys
    exerciseEvents := fragment.exercises.map fun exercise =>
      exercise.exerciseEventPk.bind maps.eventIdByPk.get
    exercisePackages := fragment.exercises.map fun exercise =>
      maps.packageIdByOldPk.get exercise.packagePk
    createdTransactionComplete := !createdTransactionIncomplete fragment }

def validSnapshotOffset (value : String) : Checked Unit :=
  if ¬ isCanonicalDecimal value then .error (validation "snapshot end offset is invalid")
  else if decimalValue value > 9223372036854775807 then
    .error (validation "snapshot end offset is outside the int64 range")
  else .ok ()

/-- `createGrpcQueryDataset`. -/
def createGrpcQueryDataset (fragment : GrpcQueryRelationFragment) (packages : List GrpcPackageMetadata)
    (endInclusive instanceId : String) : Checked CompiledDataset := do
  validSnapshotOffset endInclusive
  guardThat (!instanceId.isEmpty) (validation "snapshot instance id is missing")
  normalizeGrpcPackageMetadata packages
  checkDistinct GrpcPackageMetadata.id
    (fun package => validation ("has duplicate package metadata " ++ package.id)) [] packages
  checkDistinct TemplateEntry.identity
    (fun entry => validation ("has duplicate DAML-LF template " ++ entry.identity)) []
    (templateEntries packages)
  let rows ← grpcRows locale fragment packages
  createQueryDataset (rows.toQueryDataset endInclusive instanceId)

end Dataset

/-- A dataset is the one that its rows and keys lay down. -/
theorem createGrpcQueryDataset_ok {locale : Collation} {fragment : GrpcQueryRelationFragment}
    {packages : List GrpcPackageMetadata} {endInclusive instanceId : String} {dataset : CompiledDataset}
    (h : createGrpcQueryDataset locale fragment packages endInclusive instanceId = .ok dataset) :
    normalizeGrpcPackageMetadata packages = .ok () ∧
      ((templateEntries packages).map TemplateEntry.identity).Nodup ∧
      ∃ rows, grpcRows locale fragment packages = .ok rows ∧
        dataset.toQueryDataset = rows.toQueryDataset endInclusive instanceId := by
  obtain ⟨_, _, h⟩ := bind_eq_ok.mp h
  obtain ⟨_, _, h⟩ := bind_eq_ok.mp h
  obtain ⟨_, hnormalized, h⟩ := bind_eq_ok.mp h
  obtain ⟨_, _, h⟩ := bind_eq_ok.mp h
  obtain ⟨_, htemplates, h⟩ := bind_eq_ok.mp h
  obtain ⟨rows, hrows, h⟩ := bind_eq_ok.mp h
  exact ⟨hnormalized, (checkDistinct_eq_ok.mp htemplates).1, rows, hrows, createQueryDataset_eq_ok h⟩

end CantonSdk.Query.Grpc
