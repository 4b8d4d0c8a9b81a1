import CantonSdk.Base.Decimal

/-!
# Reading a history range

`readHistoryRangeAsync` walks the pages of one range and refuses any page that does not continue the
previous one. A walk is the loop's local variables; `receive` is the loop body from one awaited page
to the next request.
-/

set_option linter.all false

namespace CantonSdk.Query.Grpc

open CantonSdk.Base

/-- The reasons of `QuerySnapshotIncompleteError` that reading a history raises. -/
inductive QuerySnapshotIncompleteReason where
  | invalidOffset
  | participantPruned
  | maxPagesExceeded
  | maxUpdatesExceeded
  | missingBoundary
  | pageBoundaryMismatch
  | nonterminalPageWithoutToken
  | nonterminalPageReachesEnd
  | repeatedPageToken
  deriving DecidableEq

namespace QuerySnapshotIncompleteReason

def text : QuerySnapshotIncompleteReason → String
  | invalidOffset => "invalid-offset"
  | participantPruned => "participant-pruned"
  | maxPagesExceeded => "max-pages-exceeded"
  | maxUpdatesExceeded => "max-updates-exceeded"
  | missingBoundary => "missing-boundary"
  | pageBoundaryMismatch => "page-boundary-mismatch"
  | nonterminalPageWithoutToken => "nonterminal-page-without-token"
  | nonterminalPageReachesEnd => "nonterminal-page-reaches-end"
  | repeatedPageToken => "repeated-page-token"

end QuerySnapshotIncompleteReason

structure QuerySnapshotIncompleteError where
  beginExclusive : String
  endInclusive : String
  reason : QuerySnapshotIncompleteReason
  deriving DecidableEq

def QuerySnapshotIncompleteError.message (error : QuerySnapshotIncompleteError) : String :=
  "gRPC query snapshot is incomplete: " ++ error.reason.text ++ "."

/-- Offsets are signed 64-bit integers on the wire. -/
def maxOffset : Nat := 9223372036854775807

/-- `parseOffset`: canonical text of at most 19 digits, within 64 bits. -/
def parseOffset (value : String) : Option Nat :=
  if isCanonicalDecimal value ∧ value.length ≤ 19 ∧ decimalValue value ≤ maxOffset then
    some (decimalValue value)
  else none

/-- An update of the ledger: which kind it is, the offset that kind carries, and the rest of it. -/
inductive LedgerUpdate (Body : Type) where
  | transaction (offset : String) (body : Body)
  | reassignment (offset : String) (body : Body)
  | offsetCheckpoint (offset : String)
  | topologyTransaction (offset : String) (body : Body)
  | unset

variable {Body : Type}

def extractUpdateOffset : LedgerUpdate Body → Option String
  | .transaction offset _ => some offset
  | .reassignment offset _ => some offset
  | .offsetCheckpoint offset => some offset
  | .topologyTransaction offset _ => some offset
  | .unset => none

/-- `parseOffset(extractUpdateOffset(update))`. -/
def updateOffset (update : LedgerUpdate Body) : Option Nat :=
  (extractUpdateOffset update).bind parseOffset

structure HistorySnapshot (Body : Type) where
  endInclusive : String
  updates : List (LedgerUpdate Body)

/-- The options a history read uses; `validateOptions` rejects limits that are not positive. -/
structure ReaderOptions where
  maxHistoryPages : Nat := 10000
  maxHistoryUpdates : Nat := 1000000
  incrementalHistory : Bool := false
  maxHistoryPages_pos : 0 < maxHistoryPages := by decide
  maxHistoryUpdates_pos : 0 < maxHistoryUpdates := by decide

structure GetUpdatesPageResponse (Body : Type) where
  updates : List (LedgerUpdate Body)
  lowestPageOffsetExclusive : String
  highestPageOffsetInclusive : String
  nextPageToken : Option (List UInt8)

/-- The local variables of `readHistoryRangeAsync`. -/
structure HistoryWalk (Body : Type) where
  beginExclusive : Nat
  endOffset : Nat
  endInclusive : String
  seed : List (LedgerUpdate Body)
  updates : List (LedgerUpdate Body)
  observedPageTokens : List String
  expectedLowestExclusive : Nat
  pageToken : Option (List UInt8)
  pagesRead : Nat
  previousUpdateOffset : Option Nat

/-- A walk before its first page. -/
def HistoryWalk.start (beginExclusive endOffset : Nat) (endInclusive : String)
    (seed : List (LedgerUpdate Body)) : HistoryWalk Body where
  beginExclusive := beginExclusive
  endOffset := endOffset
  endInclusive := endInclusive
  seed := seed
  updates := []
  observedPageTokens := []
  expectedLowestExclusive := beginExclusive
  pageToken := none
  pagesRead := 0
  previousUpdateOffset := none

/-- `this.historyError(begin, endInclusive, reason)`. -/
def HistoryWalk.historyError (walk : HistoryWalk Body) (reason : QuerySnapshotIncompleteReason) :
    QuerySnapshotIncompleteError where
  beginExclusive := toString walk.beginExclusive
  endInclusive := walk.endInclusive
  reason := reason

/-- The guard after `getLatestPrunedOffsetsAsync`. -/
def checkPruned (walk : HistoryWalk Body) (participantPrunedUpToInclusive : String) :
    Except QuerySnapshotIncompleteError Unit :=
  match parseOffset participantPrunedUpToInclusive with
  | none => .error (walk.historyError .participantPruned)
  | some prunedUpTo =>
      if prunedUpTo > walk.beginExclusive then .error (walk.historyError .participantPruned)
      else .ok ()

/-- The guard at the head of the loop, before the next page is requested. -/
def checkPages (options : ReaderOptions) (walk : HistoryWalk Body) :
    Except QuerySnapshotIncompleteError (HistoryWalk Body) :=
  if walk.pagesRead ≥ options.maxHistoryPages then .error (walk.historyError .maxPagesExceeded)
  else .ok walk

/-- The loop over a page's updates; its result is `previousUpdateOffset`. -/
def checkUpdateOffsets (lowest highest : Nat) :
    Option Nat → List (LedgerUpdate Body) → Except QuerySnapshotIncompleteReason (Option Nat)
  | previous, [] => .ok previous
  | previous, update :: rest =>
      match updateOffset update with
      | none => .error .pageBoundaryMismatch
      | some offset =>
          if offset ≤ lowest ∨ offset > highest ∨ (∃ p ∈ previous, offset ≤ p) then
            .error .pageBoundaryMismatch
          else checkUpdateOffsets lowest highest (some offset) rest

def tokenKeyFor (token : List UInt8) : String :=
  ",".intercalate (token.map fun byte => toString byte.toNat)

/-- An absent token and an empty one both say that a page is the last. -/
def followingToken : Option (List UInt8) → Option (List UInt8)
  | none => none
  | some [] => none
  | some token => some token

/-- A page ends the walk or asks for the next page. -/
inductive WalkOutcome (Body : Type) where
  | finished (snapshot : HistorySnapshot Body)
  | continues (walk : HistoryWalk Body)

/-- What the loop does with a page whose boundaries continue the walk. -/
def receiveWithin (options : ReaderOptions) (walk : HistoryWalk Body)
    (response : GetUpdatesPageResponse Body) (lowest highest : Nat) :
    Except QuerySnapshotIncompleteReason (WalkOutcome Body) :=
  if response.updates.length + walk.seed.length + walk.updates.length > options.maxHistoryUpdates then
    .error .maxUpdatesExceeded
  else
    match checkUpdateOffsets lowest highest walk.previousUpdateOffset response.updates with
    | .error reason => .error reason
    | .ok previous =>
        match followingToken response.nextPageToken with
        | none =>
            if highest ≠ walk.endOffset then .error .nonterminalPageWithoutToken
            else .ok (.finished
              { endInclusive := walk.endInclusive
                updates := walk.seed ++ (walk.updates ++ response.updates) })
        | some nextPageToken =>
            if highest ≥ walk.endOffset then .error .nonterminalPageReachesEnd
            else if highest ≤ lowest then .error .pageBoundaryMismatch
            else if tokenKeyFor nextPageToken ∈ walk.observedPageTokens then .error .repeatedPageToken
            else .ok (.continues
              { walk with
                updates := walk.updates ++ response.updates
                observedPageTokens := walk.observedPageTokens ++ [tokenKeyFor nextPageToken]
                expectedLowestExclusive := highest
                pageToken := some nextPageToken
                pagesRead := walk.pagesRead + 1
                previousUpdateOffset := previous })

/-- The loop body after an awaited page, up to the next request. -/
def receive (options : ReaderOptions) (walk : HistoryWalk Body)
    (response : GetUpdatesPageResponse Body) :
    Except QuerySnapshotIncompleteError (WalkOutcome Body) :=
  match parseOffset response.lowestPageOffsetExclusive,
      parseOffset response.highestPageOffsetInclusive with
  | some lowest, some highest =>
      if lowest ≠ walk.expectedLowestExclusive ∨ highest < lowest ∨ highest > walk.endOffset then
        .error (walk.historyError .pageBoundaryMismatch)
      else
        match receiveWithin options walk response lowest highest with
        | .error reason => .error (walk.historyError reason)
        | .ok (.finished snapshot) => .ok (.finished snapshot)
        | .ok (.continues next) => (checkPages options next).map .continues
  | _, _ => .error (walk.historyError .missingBoundary)

structure HistoryCacheEntry (Body : Type) where
  endOffset : Nat
  updates : List (LedgerUpdate Body)

/-- The filter of `readHistoryAsync` for a request shorter than the cached window. -/
def isUpTo (endOffset : Nat) (update : LedgerUpdate Body) : Bool :=
  match updateOffset update with
  | none => false
  | some offset => offset ≤ endOffset

/-- What `readHistoryAsync` does before its first await. -/
inductive HistoryRequest (Body : Type) where
  /-- The cached window answers the request. -/
  | held (snapshot : HistorySnapshot Body)
  /-- The rest of the range has to be walked. -/
  | walk (walk : HistoryWalk Body)

/-- `readHistoryAsync` up to its first await. -/
def requestHistory (options : ReaderOptions) (historyCache : Option (HistoryCacheEntry Body))
    (endInclusive : String) : Except QuerySnapshotIncompleteError (HistoryRequest Body) :=
  match parseOffset endInclusive with
  | none => .error { beginExclusive := "0", endInclusive, reason := .invalidOffset }
  | some endOffset =>
      match (if options.incrementalHistory then historyCache else none) with
      | some cached =>
          if cached.endOffset ≥ endOffset then
            let updates :=
              if cached.endOffset = endOffset then cached.updates
              else cached.updates.filter (isUpTo endOffset)
            .ok (.held { endInclusive, updates })
          else .ok (.walk (.start cached.endOffset endOffset endInclusive cached.updates))
      | none => .ok (.walk (.start 0 endOffset endInclusive []))

/-- What `readHistoryAsync` leaves in `historyCache` after a walk has resolved. -/
def retainHistory (options : ReaderOptions) (historyCache : Option (HistoryCacheEntry Body))
    (endOffset : Nat) (snapshot : HistorySnapshot Body) : Option (HistoryCacheEntry Body) :=
  if options.incrementalHistory ∧ ∀ held ∈ historyCache, held.endOffset < endOffset then
    some { endOffset, updates := snapshot.updates }
  else historyCache

/-! ### Offsets -/

theorem parseOffset_toString {n : Nat} (hn : n ≤ maxOffset) : parseOffset (toString n) = some n := by
  have hlength : (toString n).length ≤ 19 := by
    rw [Nat.toString_eq_repr, ← String.length_toList, Nat.toList_repr]
    have hdigits := Nat.length_toDigits_le_iff (b := 10) (n := n) (k := 19) (by decide) (by decide)
    rw [hdigits]
    exact Nat.lt_of_le_of_lt hn (by decide)
  have hvalue : decimalValue (toString n) ≤ maxOffset := by
    rw [decimalValue_toString]
    exact hn
  rw [parseOffset, if_pos ⟨isCanonicalDecimal_toString n, hlength, hvalue⟩, decimalValue_toString]

theorem parseOffset_le {value : String} {offset : Nat} (h : parseOffset value = some offset) :
    offset ≤ maxOffset := by
  rw [parseOffset] at h
  split at h
  · rename_i hvalue
    obtain rfl := Option.some.inj h
    exact hvalue.2.2
  · cases h

/-- A parsed offset prints back as the text it was parsed from. -/
theorem toString_parseOffset {value : String} {offset : Nat} (h : parseOffset value = some offset) :
    toString offset = value := by
  rw [parseOffset] at h
  split at h
  · rename_i hvalue
    obtain rfl := Option.some.inj h
    exact toString_decimalValue hvalue.1
  · cases h

end CantonSdk.Query.Grpc
