import CantonSdk.Query.Grpc.ActiveContracts
import CantonSdk.Query.Grpc.IncrementalHistory

/-!
# Refreshing a contract snapshot

What a population of the cache computes between its awaits. A full refresh downloads the active
contracts page by page; a delta refresh patches the snapshot it finds with the creates and archives of
an update window, and gives up, returning nothing, wherever it cannot prove the window complete.
-/

set_option linter.all false

namespace CantonSdk.Query.Grpc

open CantonSdk.Base CantonSdk.Query.Canonical

/-! ### Snapshots -/

/-- The facts of a creation that the contract type join needs. -/
structure GrpcCachedCreationMetadata where
  contractId : String
  packageName : String
  representativePackageId : Option String
  deriving DecidableEq

/-- A snapshot of version 3. -/
structure CachedContractSnapshot where
  endpointScope : String
  parties : Option (List String)
  activeAtOffset : String
  expiresAtEpochMs : Int
  contracts : List ContractRow
  creationMetadata : List GrpcCachedCreationMetadata
  deriving DecidableEq

inductive RefreshKind where
  | full
  | delta
  | noop
  deriving DecidableEq

structure ContractCacheResult where
  activeAtOffset : String
  contractCount : Nat
  expiresAt : Int
  refresh : RefreshKind
  offsetGap : Option String
  deltaUpdateCount : Option Nat
  deriving DecidableEq

structure GrpcContractCacheDeltaOptions where
  maxOffsetGap : Option Nat
  maxUpdates : Option Nat

/-- What every refresh of one scope is given. -/
structure RefreshScope where
  endpointScope : String
  parties : Option (List String)
  /-- What `effectiveExpiryEpochMs` makes of the clock. -/
  expiry : Checked Int

def creationMetadata (identity : GrpcQueryCreationIdentity) : GrpcCachedCreationMetadata where
  contractId := identity.contractId
  packageName := identity.packageName
  representativePackageId := identity.representativePackageId

/-! ### The update window -/

/-- A transaction in the shape `ACS_DELTA`. -/
structure DeltaTransaction where
  synchronizerId : String
  events : List Event

/-- A transaction update without its transaction is malformed; of the other kinds no body is read. -/
abbrev DeltaUpdate : Type := LedgerUpdate (Option DeltaTransaction)

inductive DeltaEntry where
  | created (event : CreatedEvent) (synchronizerId : String)
  | archived (contractId : String)

def deltaEntry (synchronizerId : String) : Event → Option DeltaEntry
  | .created event => some (.created event synchronizerId)
  | .archived contractId => if contractId.isEmpty then none else some (.archived contractId)
  | .exercised _ | .unset => none

/-- None means that the window cannot be patched. -/
def collectDeltaEntries : DeltaUpdate → Option (List DeltaEntry)
  | .offsetCheckpoint _ => some []
  | .transaction _ (some transaction) =>
      if transaction.synchronizerId.isEmpty then none
      else transaction.events.mapM (deltaEntry transaction.synchronizerId)
  | .transaction _ none | .reassignment _ _ | .topologyTransaction _ _ | .unset => none

/-- The loop over the updates of a page. -/
def collectUpdates : List DeltaUpdate → Option (List DeltaEntry)
  | [] => some []
  | update :: rest => do
      let entries ← collectDeltaEntries update
      let others ← collectUpdates rest
      return entries ++ others

/-- The local variables of `readDeltaWindowAsync`. -/
structure DeltaWalk where
  endOffset : Nat
  maxUpdates : Nat
  entries : List DeltaEntry
  seenPageTokens : List String
  expectedLowestExclusive : Nat
  pageToken : Option (List UInt8)
  updatesSeen : Nat

inductive DeltaOutcome where
  | finished (entries : List DeltaEntry)
  | continues (walk : DeltaWalk)

def deltaMaxPages : Nat := 10000

/-- What the loop does with a page whose boundaries continue the walk. -/
def receiveDeltaWithin (walk : DeltaWalk) (response : GetUpdatesPageResponse (Option DeltaTransaction))
    (lowest highest : Nat) : Option DeltaOutcome :=
  if walk.updatesSeen + response.updates.length > walk.maxUpdates then none
  else
    match collectUpdates response.updates with
    | none => none
    | some collected =>
        match followingToken response.nextPageToken with
        | none =>
            if highest = walk.endOffset then some (.finished (walk.entries ++ collected)) else none
        | some nextPageToken =>
            if highest ≥ walk.endOffset ∨ highest ≤ lowest then none
            else if tokenKeyFor nextPageToken ∈ walk.seenPageTokens then none
            else some (.continues
              { walk with
                entries := walk.entries ++ collected
                seenPageTokens := walk.seenPageTokens ++ [tokenKeyFor nextPageToken]
                expectedLowestExclusive := highest
                pageToken := some nextPageToken
                updatesSeen := walk.updatesSeen + response.updates.length })

/-- The loop body after an awaited page. -/
def receiveDeltaPage (walk : DeltaWalk) (response : GetUpdatesPageResponse (Option DeltaTransaction)) :
    Option DeltaOutcome :=
  match parseOffset response.lowestPageOffsetExclusive,
      parseOffset response.highestPageOffsetInclusive with
  | some lowest, some highest =>
      if lowest ≠ walk.expectedLowestExclusive ∨ highest < lowest ∨ highest > walk.endOffset then none
      else receiveDeltaWithin walk response lowest highest
  | _, _ => none

/-- The loop over the pages, as the update service answers them; it rejects where they end. -/
def readDeltaPages : Nat → DeltaWalk → List (GetUpdatesPageResponse (Option DeltaTransaction)) →
    Option (List DeltaEntry)
  | 0, _, _ => none
  | _ + 1, _, [] => none
  | pagesLeft + 1, walk, response :: rest =>
      match receiveDeltaPage walk response with
      | none => none
      | some (.finished entries) => some entries
      | some (.continues next) => readDeltaPages pagesLeft next rest

/-- `readDeltaWindowAsync`. -/
def readDeltaWindow (options : GrpcContractCacheDeltaOptions) (base : CachedContractSnapshot)
    (baseOffset endOffset : Nat) (pages : List (GetUpdatesPageResponse (Option DeltaTransaction))) :
    Option (List DeltaEntry) :=
  readDeltaPages deltaMaxPages
    { endOffset := endOffset
      maxUpdates := options.maxUpdates.getD (max 1000 (2 * base.contracts.length))
      entries := []
      seenPageTokens := []
      expectedLowestExclusive := baseOffset
      pageToken := none
      updatesSeen := 0 } pages

/-! ### The patch -/

/-- The maps `adds` and `removes`. -/
structure DeltaPatch where
  adds : KeyedMap String (CreatedEvent × String)
  removes : List String

def DeltaPatch.empty : DeltaPatch := ⟨.empty, []⟩

/-- The body of the loop over the window's entries; none gives the delta up. -/
def applyDeltaEntry (baseIds : List String) (patch : DeltaPatch) : DeltaEntry → Option DeltaPatch
  | .created event synchronizerId =>
      if event.contractId ∈ baseIds ∨ patch.adds.has event.contractId then none
      else some { patch with adds := patch.adds.set event.contractId (event, synchronizerId) }
  | .archived contractId =>
      if patch.adds.has contractId then some { patch with adds := patch.adds.delete contractId }
      else if contractId ∈ baseIds then some { patch with removes := contractId :: patch.removes }
      else none

/-- A contract that the window created and did not archive. -/
def survivor (added : CreatedEvent × String) : GetActiveContractsResponse :=
  .activeContract (some added.1) added.2 "0"

section Refresh

variable (locale : Collation)

/-- The rows that a download of these active contracts stores. -/
def storedRows (activeContracts : List GetActiveContractsResponse) :
    Checked (List ContractRow × List GrpcCachedCreationMetadata) := do
  let fragment ← mapGrpcQueryRelationFragment locale [] activeContracts
  return (fragment.contracts, fragment.creationIdentities.map creationMetadata)

/-- The rows of the base without the removed ones, and those of the survivors. -/
def patchRows (base : CachedContractSnapshot) (patch : DeltaPatch) :
    Checked (List ContractRow × List GrpcCachedCreationMetadata) := do
  let added ← storedRows locale (patch.adds.values.map survivor)
  return (
    sortBy (compareKey locale.localeCompare ContractRow.contractId)
      ((base.contracts.filter fun row => decide (row.contractId ∉ patch.removes)) ++ added.1),
    sortBy (compareKey locale.localeCompare GrpcCachedCreationMetadata.contractId)
      ((base.creationMetadata.filter fun entry => decide (entry.contractId ∉ patch.removes)) ++ added.2))

/-- `writeSnapshotAsync`: the result, and the snapshot handed to the store. -/
def writeSnapshot (scope : RefreshScope) (activeAtOffset : String)
    (rows : List ContractRow × List GrpcCachedCreationMetadata) (refresh : RefreshKind)
    (offsetGap : Option String) (deltaUpdateCount : Option Nat) :
    Checked (ContractCacheResult × CachedContractSnapshot) := do
  let expiresAtEpochMs ← scope.expiry
  return (
    { activeAtOffset
      contractCount := rows.1.length
      expiresAt := expiresAtEpochMs
      refresh
      offsetGap
      deltaUpdateCount },
    { endpointScope := scope.endpointScope
      parties := scope.parties
      activeAtOffset
      expiresAtEpochMs
      contracts := rows.1
      creationMetadata := rows.2 })

/-- What the state and update services answer to a delta refresh. -/
structure DeltaAnswers where
  participantPrunedUpToInclusive : String
  ledgerEnd : String
  pages : List (GetUpdatesPageResponse (Option DeltaTransaction))

/-- The patched rows of a window, and how many entries it had. -/
def patchWindow (options : GrpcContractCacheDeltaOptions) (base : CachedContractSnapshot)
    (baseOffset endOffset : Nat) (answers : DeltaAnswers) :
    Option ((List ContractRow × List GrpcCachedCreationMetadata) × Nat) := do
  let entries ← readDeltaWindow options base baseOffset endOffset answers.pages
  let patch ← entries.foldlM (applyDeltaEntry (base.contracts.map ContractRow.contractId)) .empty
  let rows ← (patchRows locale base patch).toOption
  return (rows, entries.length)

def deltaDefaultMaxOffsetGap : Nat := 1000000

/-- `tryDeltaRefreshAsync`, up to the write it issues; none asks for a full download. The write of an
unchanged base is not awaited inside the `try`, so its error escapes. -/
def tryDeltaRefresh (scope : RefreshScope) (options : GrpcContractCacheDeltaOptions)
    (base : CachedContractSnapshot) (answers : DeltaAnswers) :
    Checked (Option (ContractCacheResult × CachedContractSnapshot)) :=
  match parseOffset base.activeAtOffset, parseOffset answers.participantPrunedUpToInclusive,
      parseOffset answers.ledgerEnd with
  | some baseOffset, some pruned, some ledgerEnd =>
      if pruned > baseOffset ∨ ledgerEnd < baseOffset then .ok none
      else if ledgerEnd = baseOffset then
        (writeSnapshot scope base.activeAtOffset (base.contracts, base.creationMetadata) .noop (some "0")
          none).map some
      else if ledgerEnd - baseOffset > options.maxOffsetGap.getD deltaDefaultMaxOffsetGap then .ok none
      else
        match patchWindow locale options base baseOffset ledgerEnd answers with
        | none => .ok none
        | some (rows, count) =>
            match writeSnapshot scope (toString ledgerEnd) rows .delta
                (some (toString (ledgerEnd - baseOffset))) (some count) with
            | .error _ => .ok none
            | .ok written => .ok (some written)
  | _, _, _ => .ok none

structure ActiveContractsPage where
  activeAtOffset : String
  activeContracts : List GetActiveContractsResponse
  nextPageToken : Option (List UInt8)

/-- The loop over the active-contract pages, with the offset and the tokens seen so far. -/
def readActiveContracts (activeAtOffset : Option String) (seenPageTokens : List String) :
    List ActiveContractsPage → Checked (String × List GetActiveContractsResponse)
  | [] => .error (.plain "the state service rejects")
  | page :: rest => do
      guardThat (parseOffset page.activeAtOffset).isSome
        (.plain "Active-contracts response is missing activeAtOffset.")
      guardThat (activeAtOffset.all fun offset => offset = page.activeAtOffset)
        (.plain "Active-contracts response activeAtOffset changed during traversal.")
      match followingToken page.nextPageToken with
      | none => return (page.activeAtOffset, page.activeContracts)
      | some token => do
          guardThat (decide (tokenKeyFor token ∉ seenPageTokens))
            (.plain "Active-contracts response repeated a page token.")
          let (offset, others) ← readActiveContracts (some page.activeAtOffset)
            (tokenKeyFor token :: seenPageTokens) rest
          return (offset, page.activeContracts ++ others)

/-- How far a full refresh moved the snapshot, where both offsets can be read. -/
def fullOffsetGap (base : Option CachedContractSnapshot) (activeAtOffset : String) : Option String :=
  match base.bind fun base => parseOffset base.activeAtOffset, parseOffset activeAtOffset with
  | some baseOffset, some newOffset =>
      if newOffset ≥ baseOffset then some (toString (newOffset - baseOffset)) else none
  | _, _ => none

/-- `fullRefreshAsync`, up to the write it issues. -/
def fullRefresh (scope : RefreshScope) (base : Option CachedContractSnapshot)
    (pages : List ActiveContractsPage) : Checked (ContractCacheResult × CachedContractSnapshot) := do
  let (activeAtOffset, activeContracts) ← readActiveContracts none [] pages
  let rows ← storedRows locale activeContracts
  writeSnapshot scope activeAtOffset rows .full (fullOffsetGap base activeAtOffset) none

end Refresh

end CantonSdk.Query.Grpc
