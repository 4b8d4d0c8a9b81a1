import CantonSdk.Base.Transition
import CantonSdk.Base.Window
import CantonSdk.Query.Grpc.SnapshotReader
import Mathlib.Logic.Function.Basic

/-!
# Incremental history over an append-only ledger

Any number of readers, any number of calls on each, cut at their awaits. The participant answers every
request in its own time, from the ledger as it then stands: a page that names two boundaries holds
exactly the updates between them, and the ledger already reaches the upper one. Everything a reader
holds, retained or still on its way to a caller, is then a window of the ledger that later updates
cannot enter.
-/

set_option linter.all false

namespace CantonSdk.Query.Grpc

open CantonSdk.Base Function

variable {Body : Type}

/-- Where an update stands on the ledger. -/
def position (update : LedgerUpdate Body) : Nat := (updateOffset update).getD 0

structure Ledger (Body : Type) where
  updates : List (LedgerUpdate Body)
  endOffset : Nat
  offsets_valid : ∀ update ∈ updates, ∃ offset, updateOffset update = some offset ∧ 0 < offset ∧
    offset ≤ endOffset
  increasing : updates.Pairwise fun earlier later => position earlier < position later

/-- The ledger grows past its end and nowhere else. -/
def Ledger.Extends (before after : Ledger Body) : Prop :=
  before.endOffset ≤ after.endOffset ∧ ∃ fresh, after.updates = before.updates ++ fresh ∧
    ∀ update ∈ fresh, before.endOffset < position update

/-- These are the ledger's updates above one offset and up to another that the ledger has reached. -/
def Ledger.Covers (ledger : Ledger Body) (low high : Nat) (updates : List (LedgerUpdate Body)) : Prop :=
  high ≤ ledger.endOffset ∧ updates = window position low high ledger.updates

/-- A page with two boundaries holds what the ledger has between them. -/
def Ledger.Answers (ledger : Ledger Body) (response : GetUpdatesPageResponse Body) : Prop :=
  ∀ lowest highest, parseOffset response.lowestPageOffsetExclusive = some lowest →
    parseOffset response.highestPageOffsetInclusive = some highest → lowest ≤ highest →
    ledger.Covers lowest highest response.updates

structure Reader (Body : Type) where
  options : ReaderOptions
  historyCache : Option (HistoryCacheEntry Body)

inductive HistoryPhase (Body : Type) where
  /-- `await this.stateService.getLatestPrunedOffsetsAsync({})`. -/
  | checkingPruned (walk : HistoryWalk Body)
  /-- `await this.updateService.getUpdatesPageAsync(request)`. -/
  | awaitingPage (walk : HistoryWalk Body)
  /-- The range has been read and `readHistoryAsync` has not resumed yet. -/
  | rangeRead (endOffset : Nat) (snapshot : HistorySnapshot Body)
  | resolved (snapshot : HistorySnapshot Body)
  /-- Rejected by the reader, or with the error of a service. -/
  | rejected (error : Option QuerySnapshotIncompleteError)

structure HistoryCall (Body : Type) where
  reader : Nat
  endInclusive : String
  phase : HistoryPhase Body

namespace HistoryPhase

def afterRequest : Except QuerySnapshotIncompleteError (HistoryRequest Body) → HistoryPhase Body
  | .error error => rejected (some error)
  | .ok (.held snapshot) => resolved snapshot
  | .ok (.walk walk) => checkingPruned walk

def afterPruned (options : ReaderOptions) (walk : HistoryWalk Body) (prunedUpTo : String) :
    HistoryPhase Body :=
  match checkPruned walk prunedUpTo with
  | .error error => rejected (some error)
  | .ok () =>
      match checkPages options walk with
      | .error error => rejected (some error)
      | .ok walk => awaitingPage walk

def afterPage (options : ReaderOptions) (walk : HistoryWalk Body)
    (response : GetUpdatesPageResponse Body) : HistoryPhase Body :=
  match receive options walk response with
  | .error error => rejected (some error)
  | .ok (.finished snapshot) => rangeRead walk.endOffset snapshot
  | .ok (.continues next) => awaitingPage next

def awaitsService : HistoryPhase Body → Bool
  | checkingPruned _ => true
  | awaitingPage _ => true
  | _ => false

end HistoryPhase

structure HistoryState (Body : Type) where
  ledger : Ledger Body
  readers : Nat → Option (Reader Body)
  calls : Nat → Option (HistoryCall Body)

/-- No reader yet. -/
def HistoryState.initial (ledger : Ledger Body) : HistoryState Body where
  ledger := ledger
  readers := fun _ => none
  calls := fun _ => none

/-- One step between two awaits. -/
inductive HistoryStep (s : HistoryState Body) : HistoryState Body → Prop
  | ledgerAppends (ledger : Ledger Body) (hextends : s.ledger.Extends ledger) :
      HistoryStep s { s with ledger := ledger }
  | newReader (name : Nat) (options : ReaderOptions)
      (hfresh : s.readers name = none) :
      HistoryStep s { s with readers := update s.readers name (some ⟨options, none⟩) }
  | readHistory (name reader : Nat) (r : Reader Body) (endInclusive : String)
      (hfresh : s.calls name = none) (hreader : s.readers reader = some r) :
      HistoryStep s
        { s with
          calls := update s.calls name (some ⟨reader, endInclusive,
            .afterRequest (requestHistory r.options r.historyCache endInclusive)⟩) }
  | prunedAnswered (name reader : Nat) (r : Reader Body) (endInclusive : String)
      (walk : HistoryWalk Body) (prunedUpTo : String)
      (hcall : s.calls name = some ⟨reader, endInclusive, .checkingPruned walk⟩)
      (hreader : s.readers reader = some r) :
      HistoryStep s
        { s with
          calls := update s.calls name
            (some ⟨reader, endInclusive, .afterPruned r.options walk prunedUpTo⟩) }
  | pageAnswered (name reader : Nat) (r : Reader Body) (endInclusive : String)
      (walk : HistoryWalk Body) (response : GetUpdatesPageResponse Body)
      (hcall : s.calls name = some ⟨reader, endInclusive, .awaitingPage walk⟩)
      (hreader : s.readers reader = some r) (hanswers : s.ledger.Answers response) :
      HistoryStep s
        { s with
          calls := update s.calls name
            (some ⟨reader, endInclusive, .afterPage r.options walk response⟩) }
  | serviceRejects (name : Nat) (call : HistoryCall Body)
      (hcall : s.calls name = some call) (hawaits : call.phase.awaitsService = true) :
      HistoryStep s
        { s with calls := update s.calls name (some { call with phase := .rejected none }) }
  /-- `readHistoryAsync` resumes: it retains the window unless a longer one is there by now. -/
  | rangeReturns (name reader : Nat) (r : Reader Body) (endInclusive : String)
      (endOffset : Nat) (snapshot : HistorySnapshot Body)
      (hcall : s.calls name = some ⟨reader, endInclusive, .rangeRead endOffset snapshot⟩)
      (hreader : s.readers reader = some r) :
      HistoryStep s
        { s with
          readers := update s.readers reader (some
            { r with historyCache := retainHistory r.options r.historyCache endOffset snapshot })
          calls := update s.calls name (some ⟨reader, endInclusive, .resolved snapshot⟩) }

/-- Every interleaving of the calls on every reader of one ledger. -/
def historyProtocol (Body : Type) : TransitionSystem (HistoryState Body) where
  init s := ∃ ledger, s = HistoryState.initial ledger
  step := HistoryStep

/-! ### What the reader's functions do -/

theorem checkPages_ok {options : ReaderOptions} {walk next : HistoryWalk Body}
    (h : checkPages options walk = .ok next) : next = walk := by
  rw [checkPages] at h
  split at h
  · cases h
  · exact (Except.ok.inj h).symm

/-- A page within its boundaries ends the walk at the requested end, or moves it on. -/
theorem receiveWithin_cases {options : ReaderOptions} {walk : HistoryWalk Body}
    {response : GetUpdatesPageResponse Body} {lowest highest : Nat} {outcome : WalkOutcome Body}
    (h : receiveWithin options walk response lowest highest = .ok outcome) :
    (highest = walk.endOffset ∧
      response.updates.length + walk.seed.length + walk.updates.length ≤ options.maxHistoryUpdates ∧
      outcome = .finished ⟨walk.endInclusive, walk.seed ++ (walk.updates ++ response.updates)⟩) ∨
    ∃ tokens token pagesRead previous, highest < walk.endOffset ∧
      outcome = .continues { walk with
        updates := walk.updates ++ response.updates
        observedPageTokens := tokens
        expectedLowestExclusive := highest
        pageToken := token
        pagesRead := pagesRead
        previousUpdateOffset := previous } := by
  unfold receiveWithin at h
  split at h
  · cases h
  · rename_i hlimit
    split at h
    · cases h
    · split at h
      · split at h
        · cases h
        · rename_i hend
          refine Or.inl ⟨?_, ?_, (Except.ok.inj h).symm⟩
          · simpa using hend
          · omega
      · split at h
        · cases h
        · rename_i hmore
          split at h
          · cases h
          · split at h
            · cases h
            · exact Or.inr ⟨_, _, _, _, by omega, (Except.ok.inj h).symm⟩

/-- A page that is accepted starts where the walk stands. -/
theorem receive_cases {options : ReaderOptions} {walk : HistoryWalk Body}
    {response : GetUpdatesPageResponse Body} {outcome : WalkOutcome Body}
    (h : receive options walk response = .ok outcome) :
    ∃ highest, parseOffset response.lowestPageOffsetExclusive = some walk.expectedLowestExclusive ∧
      parseOffset response.highestPageOffsetInclusive = some highest ∧
      walk.expectedLowestExclusive ≤ highest ∧
      receiveWithin options walk response walk.expectedLowestExclusive highest = .ok outcome := by
  unfold receive at h
  split at h
  · rename_i lowest highest hlowest hhighest
    split at h
    · cases h
    · obtain ⟨rfl, hordered⟩ : lowest = walk.expectedLowestExclusive ∧ lowest ≤ highest := by omega
      refine ⟨highest, hlowest, hhighest, hordered, ?_⟩
      split at h
      · cases h
      · rename_i hwithin
        rw [hwithin, Except.ok.inj h]
      · rename_i next hwithin
        cases hpages : checkPages options next with
        | error error => simp [hpages, Except.map] at h
        | ok same =>
            rw [hpages, checkPages_ok hpages] at h
            rw [hwithin, Except.ok.inj h]
  · cases h

theorem receive_of_within {options : ReaderOptions} {walk : HistoryWalk Body}
    {response : GetUpdatesPageResponse Body} {highest : Nat} {snapshot : HistorySnapshot Body}
    (hlowest : parseOffset response.lowestPageOffsetExclusive = some walk.expectedLowestExclusive)
    (hhighest : parseOffset response.highestPageOffsetInclusive = some highest)
    (hordered : walk.expectedLowestExclusive ≤ highest) (hend : highest ≤ walk.endOffset)
    (hwithin : receiveWithin options walk response walk.expectedLowestExclusive highest
      = .ok (.finished snapshot)) :
    receive options walk response = .ok (.finished snapshot) := by
  have hboundaries : ¬ (walk.expectedLowestExclusive ≠ walk.expectedLowestExclusive ∨
      highest < walk.expectedLowestExclusive ∨ highest > walk.endOffset) := by
    omega
  simp only [receive, hlowest, hhighest, if_neg hboundaries, hwithin]

/-! ### The invariant -/

namespace Ledger

variable {before after ledger : Ledger Body} {low middle high : Nat}
  {updates first second : List (LedgerUpdate Body)}

/-- What covers a range once covers it for good. -/
theorem Covers.extends (h : before.Covers low high updates) (hextends : before.Extends after) :
    after.Covers low high updates := by
  obtain ⟨hend, fresh, hfresh, hbeyond⟩ := hextends
  refine ⟨Nat.le_trans h.1 hend, ?_⟩
  rw [h.2, hfresh, window_append_beyond]
  intro update hupdate
  exact Nat.lt_of_le_of_lt h.1 (hbeyond update hupdate)

theorem Covers.append (hfirst : ledger.Covers low middle first)
    (hsecond : ledger.Covers middle high second) (hlow : low ≤ middle) (hhigh : middle ≤ high) :
    ledger.Covers low high (first ++ second) := by
  refine ⟨hsecond.1, ?_⟩
  rw [hfirst.2, hsecond.2]
  exact window_append_window hlow hhigh ledger.increasing

theorem updateOffset_of_mem {update : LedgerUpdate Body} (h : update ∈ ledger.updates) :
    updateOffset update = some (position update) := by
  obtain ⟨offset, hoffset, _⟩ := ledger.offsets_valid update h
  rw [position, hoffset, Option.getD_some]

/-- The prefix filter of `readHistoryAsync` lowers the upper bound. -/
theorem Covers.shorter (h : ledger.Covers low high updates) {bound : Nat} (hbound : bound ≤ high) :
    ledger.Covers low bound (updates.filter (isUpTo bound)) := by
  refine ⟨Nat.le_trans hbound h.1, ?_⟩
  rw [← filter_window hbound, ← h.2]
  apply List.filter_congr
  intro update hupdate
  rw [h.2, mem_window] at hupdate
  rw [isUpTo, updateOffset_of_mem hupdate.1]

/-- From the start of the ledger a window is everything up to its end. -/
theorem Covers.upTo (h : ledger.Covers 0 high updates) :
    updates = ledger.updates.filter fun update => decide (position update ≤ high) := by
  rw [h.2]
  apply List.filter_congr
  intro update hupdate
  obtain ⟨offset, hoffset, hpositive, _⟩ := ledger.offsets_valid update hupdate
  apply decide_eq_decide.mpr
  rw [position, hoffset, Option.getD_some]
  omega

end Ledger

/-- A walk holds the ledger up to where its range begins, and from there to where it stands. -/
structure HistoryWalk.Exact (ledger : Ledger Body) (endInclusive : String) (walk : HistoryWalk Body) :
    Prop where
  end_parsed : parseOffset endInclusive = some walk.endOffset
  endInclusive_eq : walk.endInclusive = endInclusive
  seed_covers : ledger.Covers 0 walk.beginExclusive walk.seed
  begin_le : walk.beginExclusive ≤ walk.expectedLowestExclusive
  updates_cover : ledger.Covers walk.beginExclusive walk.expectedLowestExclusive walk.updates

/-- The answer to a request, of a size the options allow. -/
structure HistorySnapshot.Exact (ledger : Ledger Body) (options : ReaderOptions) (endInclusive : String)
    (endOffset : Nat) (snapshot : HistorySnapshot Body) : Prop where
  end_parsed : parseOffset endInclusive = some endOffset
  endInclusive_eq : snapshot.endInclusive = endInclusive
  covers : ledger.Covers 0 endOffset snapshot.updates
  length_le : snapshot.updates.length ≤ options.maxHistoryUpdates

structure HistoryCacheEntry.Exact (ledger : Ledger Body) (options : ReaderOptions)
    (held : HistoryCacheEntry Body) : Prop where
  covers : ledger.Covers 0 held.endOffset held.updates
  length_le : held.updates.length ≤ options.maxHistoryUpdates

def HistoryPhase.Exact (ledger : Ledger Body) (options : ReaderOptions) (endInclusive : String) :
    HistoryPhase Body → Prop
  | checkingPruned walk => walk.Exact ledger endInclusive
  | awaitingPage walk => walk.Exact ledger endInclusive
  | rangeRead endOffset snapshot => snapshot.Exact ledger options endInclusive endOffset
  | resolved snapshot => ∃ endOffset, snapshot.Exact ledger options endInclusive endOffset
  | rejected _ => True

def Reader.Exact (ledger : Ledger Body) (reader : Reader Body) : Prop :=
  ∀ held ∈ reader.historyCache, held.Exact ledger reader.options

/-- Everything the readers hold is a window of the ledger. -/
structure HistoryInvariant (s : HistoryState Body) : Prop where
  cache_exact : ∀ {name reader}, s.readers name = some reader → reader.Exact s.ledger
  call_exact : ∀ {name call}, s.calls name = some call → ∃ reader,
    s.readers call.reader = some reader ∧ call.phase.Exact s.ledger reader.options call.endInclusive

section Phases

variable {ledger : Ledger Body} {options : ReaderOptions} {endInclusive : String}
  {walk : HistoryWalk Body}

theorem HistoryCacheEntry.Exact.extends {after : Ledger Body} {held : HistoryCacheEntry Body}
    (h : held.Exact ledger options) (hextends : ledger.Extends after) : held.Exact after options :=
  ⟨h.covers.extends hextends, h.length_le⟩

theorem HistoryPhase.Exact.extends {after : Ledger Body} {phase : HistoryPhase Body}
    (h : phase.Exact ledger options endInclusive) (hextends : ledger.Extends after) :
    phase.Exact after options endInclusive := by
  cases phase with
  | checkingPruned walk | awaitingPage walk =>
      exact { h with
        seed_covers := h.seed_covers.extends hextends
        updates_cover := h.updates_cover.extends hextends }
  | rangeRead endOffset snapshot => exact { h with covers := h.covers.extends hextends }
  | resolved snapshot =>
      obtain ⟨endOffset, hexact⟩ := h
      exact ⟨endOffset, { hexact with covers := hexact.covers.extends hextends }⟩
  | rejected error => trivial

theorem Ledger.covers_zero (ledger : Ledger Body) : ledger.Covers 0 0 [] :=
  ⟨Nat.zero_le _, (window_empty 0 _).symm⟩

/-- A new walk is exact when its seed is. -/
theorem HistoryWalk.start_exact {beginExclusive endOffset : Nat} {seed : List (LedgerUpdate Body)}
    (hparsed : parseOffset endInclusive = some endOffset)
    (hseed : ledger.Covers 0 beginExclusive seed) :
    (HistoryWalk.start beginExclusive endOffset endInclusive seed).Exact ledger endInclusive where
  end_parsed := hparsed
  endInclusive_eq := rfl
  seed_covers := hseed
  begin_le := Nat.le_refl _
  updates_cover := ⟨hseed.1, (window_empty _ _).symm⟩

theorem HistoryPhase.afterRequest_exact {reader : Reader Body} (hreader : reader.Exact ledger)
    (endInclusive : String) :
    (HistoryPhase.afterRequest (requestHistory reader.options reader.historyCache endInclusive)).Exact
      ledger reader.options endInclusive := by
  unfold requestHistory
  split
  · trivial
  · rename_i endOffset hparsed
    split
    · rename_i cached hcached
      have hheld : cached.Exact ledger reader.options := by
        apply hreader cached
        split at hcached
        · exact hcached
        · cases hcached
      split
      · rename_i hend
        -- An exact hit is returned as it is; a shorter request is a prefix of the window.
        by_cases hhit : cached.endOffset = endOffset
        · subst hhit
          refine ⟨cached.endOffset, hparsed, rfl, ?_, ?_⟩
          · simpa using hheld.covers
          · simpa using hheld.length_le
        · refine ⟨endOffset, hparsed, rfl, ?_, ?_⟩
          · simpa [hhit] using hheld.covers.shorter hend
          · simp only [hhit, if_false]
            exact Nat.le_trans (List.length_filter_le ..) hheld.length_le
      · exact HistoryWalk.start_exact hparsed hheld.covers
    · exact HistoryWalk.start_exact hparsed ledger.covers_zero

theorem HistoryPhase.afterPruned_exact (hwalk : walk.Exact ledger endInclusive) (prunedUpTo : String) :
    (HistoryPhase.afterPruned options walk prunedUpTo).Exact ledger options endInclusive := by
  unfold HistoryPhase.afterPruned
  split
  · trivial
  · split
    · trivial
    · rename_i next hpages
      rw [checkPages_ok hpages]
      exact hwalk

/-- A page carries a walk on from where it stands. -/
theorem HistoryPhase.afterPage_exact (hwalk : walk.Exact ledger endInclusive)
    {response : GetUpdatesPageResponse Body} (hanswers : ledger.Answers response) :
    (HistoryPhase.afterPage options walk response).Exact ledger options endInclusive := by
  unfold HistoryPhase.afterPage
  cases hreceive : receive options walk response with
  | error error => trivial
  | ok outcome =>
      obtain ⟨highest, hlowest, hhighest, hordered, hwithin⟩ := receive_cases hreceive
      have hpage := hanswers _ highest hlowest hhighest hordered
      have hread := hwalk.updates_cover.append hpage hwalk.begin_le hordered
      have hbegin := Nat.le_trans hwalk.begin_le hordered
      rcases receiveWithin_cases hwithin with ⟨rfl, hlimit, rfl⟩ | ⟨_, _, _, _, _, rfl⟩
      · refine ⟨hwalk.end_parsed, hwalk.endInclusive_eq, ?_, ?_⟩
        · exact hwalk.seed_covers.append hread (Nat.zero_le _) hbegin
        · simp only [List.length_append]
          omega
      · exact { hwalk with begin_le := hbegin, updates_cover := hread }

end Phases

/-! ### Steps and runs -/

variable {s t : HistoryState Body}

theorem retainHistory_cases (options : ReaderOptions) (historyCache : Option (HistoryCacheEntry Body))
    (endOffset : Nat) (snapshot : HistorySnapshot Body) :
    retainHistory options historyCache endOffset snapshot = historyCache ∨
    retainHistory options historyCache endOffset snapshot = some ⟨endOffset, snapshot.updates⟩ ∧
      ∀ held ∈ historyCache, held.endOffset < endOffset := by
  unfold retainHistory
  split
  · rename_i hretain
    exact Or.inr ⟨rfl, hretain.2⟩
  · exact Or.inl rfl

/-- The same reader later: its options are fixed and its window never ends earlier. -/
structure Reader.Grows (before after : Reader Body) : Prop where
  options_eq : after.options = before.options
  end_le : ∀ held ∈ before.historyCache, ∃ later ∈ after.historyCache, held.endOffset ≤ later.endOffset

theorem Reader.Grows.refl (reader : Reader Body) : reader.Grows reader :=
  ⟨rfl, fun held hheld => ⟨held, hheld, Nat.le_refl _⟩⟩

theorem Reader.Grows.trans {first second third : Reader Body} (hfirst : first.Grows second)
    (hsecond : second.Grows third) : first.Grows third := by
  refine ⟨hsecond.options_eq.trans hfirst.options_eq, fun held hheld => ?_⟩
  obtain ⟨later, hlater, hle⟩ := hfirst.end_le held hheld
  obtain ⟨last, hlast, hle'⟩ := hsecond.end_le later hlater
  exact ⟨last, hlast, Nat.le_trans hle hle'⟩

theorem Reader.grows_retain (reader : Reader Body) (endOffset : Nat)
    (snapshot : HistorySnapshot Body) :
    reader.Grows { reader with
      historyCache := retainHistory reader.options reader.historyCache endOffset snapshot } := by
  refine ⟨rfl, fun held hheld => ?_⟩
  rcases retainHistory_cases reader.options reader.historyCache endOffset snapshot with
    hsame | ⟨hlonger, hbound⟩
  · exact ⟨held, by rwa [hsame], Nat.le_refl _⟩
  · exact ⟨_, hlonger, Nat.le_of_lt (hbound held hheld)⟩

theorem HistoryStep.reader_persists (h : HistoryStep s t) {name : Nat} {before : Reader Body}
    (hreader : s.readers name = some before) :
    ∃ after, t.readers name = some after ∧ before.Grows after := by
  cases h with
  | newReader created options hfresh =>
      have hname : name ≠ created := by
        intro heq
        rw [heq, hfresh] at hreader
        cases hreader
      exact ⟨before, by simpa [hname] using hreader, .refl before⟩
  | rangeReturns call changed reader endInclusive endOffset snapshot hcall hchanged =>
      by_cases hname : name = changed
      · subst hname
        obtain rfl : reader = before := Option.some.inj (hchanged.symm.trans hreader)
        exact ⟨_, update_self .., reader.grows_retain endOffset snapshot⟩
      · exact ⟨before, by simpa [hname] using hreader, .refl before⟩
  | _ => exact ⟨before, hreader, .refl before⟩

/-- Along a run a reader's window never ends earlier. -/
theorem reader_grows (hrun : (historyProtocol Body).Run s t) {name : Nat} {before : Reader Body}
    (hreader : s.readers name = some before) :
    ∃ after, t.readers name = some after ∧ before.Grows after := by
  refine hrun.preserves (P := fun u => ∃ after, u.readers name = some after ∧ before.Grows after)
    ?_ ⟨before, hreader, .refl before⟩
  intro u v hu hstep
  obtain ⟨middle, hmiddle, hgrows⟩ := hu
  obtain ⟨after, hafter, hgrows'⟩ := HistoryStep.reader_persists hstep hmiddle
  exact ⟨after, hafter, hgrows.trans hgrows'⟩

/-- A step that only sets one call keeps the invariant when the new phase is exact. -/
theorem HistoryInvariant.setCall (hs : HistoryInvariant s) {name : Nat} {call : HistoryCall Body}
    {reader : Reader Body} (hreader : s.readers call.reader = some reader)
    (hexact : call.phase.Exact s.ledger reader.options call.endInclusive) :
    HistoryInvariant { s with calls := update s.calls name (some call) } where
  cache_exact := hs.cache_exact
  call_exact := by
    intro other found hfound
    by_cases hname : other = name
    · obtain rfl : call = found := by simpa [hname] using hfound
      exact ⟨reader, hreader, hexact⟩
    · exact hs.call_exact (by simpa [hname] using hfound)

/-- Changing one reader's window keeps the invariant when the new window is exact. -/
theorem HistoryInvariant.setReader (hs : HistoryInvariant s) {name : Nat} {before after : Reader Body}
    (hbefore : s.readers name = some before) (hoptions : after.options = before.options)
    (hexact : after.Exact s.ledger) :
    HistoryInvariant { s with readers := update s.readers name (some after) } where
  cache_exact := by
    intro other found hfound
    by_cases hname : other = name
    · obtain rfl : after = found := by simpa [hname] using hfound
      exact hexact
    · exact hs.cache_exact (by simpa [hname] using hfound)
  call_exact := by
    intro other call hcall
    obtain ⟨reader, hreader, hphase⟩ := hs.call_exact hcall
    by_cases hname : call.reader = name
    · refine ⟨after, by simp [hname], ?_⟩
      rw [hname] at hreader
      obtain rfl : before = reader := Option.some.inj (hbefore.symm.trans hreader)
      rwa [hoptions]
    · exact ⟨reader, by simpa [hname] using hreader, hphase⟩

theorem HistoryInvariant.initial (ledger : Ledger Body) :
    HistoryInvariant (HistoryState.initial ledger) := by
  constructor <;> simp [HistoryState.initial]

theorem HistoryInvariant.step (hs : HistoryInvariant s) (h : HistoryStep s t) :
    HistoryInvariant t := by
  cases h with
  | ledgerAppends ledger hextends =>
      refine ⟨?_, ?_⟩
      · intro name reader hreader held hheld
        exact (hs.cache_exact hreader held hheld).extends hextends
      · intro name call hcall
        obtain ⟨reader, hreader, hphase⟩ := hs.call_exact hcall
        exact ⟨reader, hreader, hphase.extends hextends⟩
  | newReader created options hfresh =>
      refine ⟨?_, ?_⟩
      · intro name reader hreader
        by_cases hname : name = created
        · obtain rfl : (⟨options, none⟩ : Reader Body) = reader := by simpa [hname] using hreader
          intro held hheld
          cases hheld
        · exact hs.cache_exact (by simpa [hname] using hreader)
      · intro name call hcall
        obtain ⟨reader, hreader, hphase⟩ := hs.call_exact hcall
        have hname : call.reader ≠ created := by
          intro heq
          rw [heq, hfresh] at hreader
          cases hreader
        exact ⟨reader, by simpa [hname] using hreader, hphase⟩
  | readHistory name reader r endInclusive hfresh hreader =>
      exact hs.setCall hreader (HistoryPhase.afterRequest_exact (hs.cache_exact hreader) endInclusive)
  | prunedAnswered name reader r endInclusive walk prunedUpTo hcall hreader =>
      obtain ⟨found, hfound, hwalk⟩ := hs.call_exact hcall
      exact hs.setCall hreader (HistoryPhase.afterPruned_exact hwalk prunedUpTo)
  | pageAnswered name reader r endInclusive walk response hcall hreader hanswers =>
      obtain ⟨found, hfound, hwalk⟩ := hs.call_exact hcall
      exact hs.setCall hreader (HistoryPhase.afterPage_exact hwalk hanswers)
  | serviceRejects name call hcall hawaits =>
      obtain ⟨reader, hreader, _⟩ := hs.call_exact hcall
      exact hs.setCall hreader trivial
  | rangeReturns name reader r endInclusive endOffset snapshot hcall hreader =>
      obtain ⟨found, hfound, hsnapshot⟩ := hs.call_exact hcall
      obtain rfl : r = found := Option.some.inj (hreader.symm.trans hfound)
      have hresolved : HistoryInvariant { s with
          calls := update s.calls name (some ⟨reader, endInclusive, .resolved snapshot⟩) } :=
        hs.setCall hreader ⟨endOffset, hsnapshot⟩
      refine hresolved.setReader hreader rfl ?_
      rcases retainHistory_cases r.options r.historyCache endOffset snapshot with
        hsame | ⟨hlonger, _⟩
      · intro held hheld
        exact hs.cache_exact hreader held (by rwa [hsame] at hheld)
      · intro held hheld
        rw [hlonger] at hheld
        obtain rfl := Option.some.inj hheld
        exact ⟨hsnapshot.covers, hsnapshot.length_le⟩

theorem historyInvariant_of_reachable (hs : (historyProtocol Body).Reachable s) :
    HistoryInvariant s := by
  refine hs.invariant ?_ ?_
  · intro start hstart
    obtain ⟨ledger, rfl⟩ := hstart
    exact HistoryInvariant.initial ledger
  · intro u v hu hstep
    exact hu.step hstep

/-! ### A fresh reader -/

/-- A page in increasing order within its boundaries passes the check on its updates. -/
theorem checkUpdateOffsets_ok {lowest highest : Nat} {updates : List (LedgerUpdate Body)}
    (hoffset : ∀ update ∈ updates, updateOffset update = some (position update))
    (hwithin : ∀ update ∈ updates, lowest < position update ∧ position update ≤ highest)
    (hincreasing : updates.Pairwise fun earlier later => position earlier < position later)
    {previous : Option Nat} (hprevious : ∀ p ∈ previous, ∀ update ∈ updates, p < position update) :
    ∃ last, checkUpdateOffsets lowest highest previous updates = .ok last := by
  induction updates generalizing previous with
  | nil => exact ⟨previous, rfl⟩
  | cons update rest ih =>
      obtain ⟨hfirst, hrest⟩ := List.pairwise_cons.mp hincreasing
      have hbounds := hwithin update List.mem_cons_self
      have hguard : ¬ (position update ≤ lowest ∨ position update > highest ∨
          ∃ p ∈ previous, position update ≤ p) := by
        intro hbad
        rcases hbad with hlow | hhigh | ⟨p, hp, hle⟩
        · omega
        · omega
        · have := hprevious p hp update List.mem_cons_self
          omega
      simp only [checkUpdateOffsets, hoffset update List.mem_cons_self, if_neg hguard]
      apply ih
      · exact fun other hother => hoffset other (List.mem_cons_of_mem _ hother)
      · exact fun other hother => hwithin other (List.mem_cons_of_mem _ hother)
      · exact hrest
      · intro p hp other hother
        obtain rfl := Option.some.inj hp
        exact hfirst other hother

/-- The page that holds a whole range from the start of the ledger. -/
def Ledger.wholePage (ledger : Ledger Body) (endInclusive : String) (endOffset : Nat) :
    GetUpdatesPageResponse Body where
  updates := window position 0 endOffset ledger.updates
  lowestPageOffsetExclusive := "0"
  highestPageOffsetInclusive := endInclusive
  nextPageToken := none

theorem parseOffset_zero : parseOffset "0" = some 0 := by decide

/-- A walk from the start of the ledger ends on a page that holds the whole range. -/
theorem afterPage_wholePage {ledger : Ledger Body} {options : ReaderOptions} {endInclusive : String}
    {endOffset : Nat} (hparsed : parseOffset endInclusive = some endOffset)
    (hlimit : (window position 0 endOffset ledger.updates).length ≤ options.maxHistoryUpdates) :
    HistoryPhase.afterPage options (.start 0 endOffset endInclusive [])
        (ledger.wholePage endInclusive endOffset)
      = .rangeRead endOffset ⟨endInclusive, window position 0 endOffset ledger.updates⟩ := by
  obtain ⟨last, hlast⟩ : ∃ last, checkUpdateOffsets 0 endOffset none
      (window position 0 endOffset ledger.updates) = .ok last := by
    apply checkUpdateOffsets_ok
    · intro update hupdate
      exact Ledger.updateOffset_of_mem (mem_window.mp hupdate).1
    · intro update hupdate
      exact (mem_window.mp hupdate).2
    · exact ledger.increasing.filter _
    · intro p hp
      cases hp
  have hwithin : receiveWithin options (.start 0 endOffset endInclusive [])
      (ledger.wholePage endInclusive endOffset) 0 endOffset
        = .ok (.finished ⟨endInclusive, window position 0 endOffset ledger.updates⟩) := by
    simp [receiveWithin, HistoryWalk.start, Ledger.wholePage, followingToken, hlast,
      Nat.not_lt.mpr hlimit]
  have hreceive := receive_of_within parseOffset_zero
    hparsed (Nat.zero_le _) (Nat.le_refl _) hwithin
  rw [HistoryPhase.afterPage, hreceive]
  rfl

/-- A reader that retains nothing can answer any range the ledger has reached and the limits allow. -/
theorem fresh_reader_resolves {ledger : Ledger Body} {options : ReaderOptions} {endInclusive : String}
    {snapshot : HistorySnapshot Body} {endOffset : Nat}
    (hoptions : options.incrementalHistory = false)
    (hsnapshot : snapshot.Exact ledger options endInclusive endOffset) :
    ∃ fresh, (historyProtocol Body).Run (.initial ledger) fresh ∧
      fresh.readers 0 = some ⟨options, none⟩ ∧
      fresh.calls 0 = some ⟨0, endInclusive, .resolved snapshot⟩ := by
  obtain ⟨hparsed, hendInclusive, ⟨hend, hupdates⟩, hlimit⟩ := hsnapshot
  have hsame : snapshot = ⟨endInclusive, window position 0 endOffset ledger.updates⟩ := by
    rw [← hendInclusive, ← hupdates]
  rw [hupdates] at hlimit
  have hrequest : HistoryPhase.afterRequest (requestHistory options none endInclusive)
      = .checkingPruned (@HistoryWalk.start Body 0 endOffset endInclusive []) := by
    simp [requestHistory, hparsed, HistoryPhase.afterRequest]
  have hpruned : HistoryPhase.afterPruned options
      (@HistoryWalk.start Body 0 endOffset endInclusive []) "0"
        = .awaitingPage (.start 0 endOffset endInclusive []) := by
    have hpages : options.maxHistoryPages ≠ 0 := Nat.pos_iff_ne_zero.mp options.maxHistoryPages_pos
    simp [HistoryPhase.afterPruned, checkPruned, parseOffset_zero, HistoryWalk.start, checkPages, hpages]
  have hanswers : ledger.Answers (ledger.wholePage endInclusive endOffset) := by
    intro lowest highest hlowest hhighest _
    obtain rfl : 0 = lowest := Option.some.inj (parseOffset_zero.symm.trans hlowest)
    obtain rfl : endOffset = highest := Option.some.inj (hparsed.symm.trans hhighest)
    exact ⟨hend, rfl⟩
  have hread := afterPage_wholePage hparsed hlimit
  have h₁ : (historyProtocol Body).Run (.initial ledger) _ :=
    (TransitionSystem.Run.refl _).tail (HistoryStep.newReader 0 options rfl)
  have h₂ := h₁.tail (HistoryStep.readHistory 0 0 ⟨options, none⟩ endInclusive rfl rfl)
  have h₃ := h₂.tail (HistoryStep.prunedAnswered 0 0 ⟨options, none⟩ endInclusive
    (.start 0 endOffset endInclusive []) "0" (by simp [hrequest]) (by simp))
  have h₄ := h₃.tail (HistoryStep.pageAnswered 0 0 ⟨options, none⟩ endInclusive
    (.start 0 endOffset endInclusive []) (ledger.wholePage endInclusive endOffset)
    (by simp [hpruned]) (by simp) hanswers)
  have h₅ := h₄.tail (HistoryStep.rangeReturns 0 0 ⟨options, none⟩ endInclusive endOffset
    ⟨endInclusive, window position 0 endOffset ledger.updates⟩ (by simp [hread]) (by simp))
  exact ⟨_, h₅, by simp [retainHistory, hoptions], by simp [hsame]⟩

/-- Every resolved call holds what any other resolved call for that end holds, and what a fresh
non-incremental reader with the same limits reads from the same ledger; a retained window is exactly
the updates up to its end; and that end never decreases. -/
theorem incremental_history_transparent (hs : (historyProtocol Body).Reachable s) :
    (∀ name reader endInclusive snapshot,
      s.calls name = some ⟨reader, endInclusive, .resolved snapshot⟩ →
      (∀ other otherReader otherSnapshot,
        s.calls other = some ⟨otherReader, endInclusive, .resolved otherSnapshot⟩ →
        otherSnapshot = snapshot) ∧
      ∃ r, s.readers reader = some r ∧
        ∃ fresh, (historyProtocol Body).Run (.initial s.ledger) fresh ∧
          fresh.readers 0 = some ⟨{ r.options with incrementalHistory := false }, none⟩ ∧
          fresh.calls 0 = some ⟨0, endInclusive, .resolved snapshot⟩) ∧
    (∀ name reader held, s.readers name = some reader → reader.historyCache = some held →
      held.endOffset ≤ s.ledger.endOffset ∧
      held.updates = s.ledger.updates.filter fun update => decide (position update ≤ held.endOffset)) ∧
    (∀ t name before held, (historyProtocol Body).Run s t → s.readers name = some before →
      before.historyCache = some held → ∃ after later, t.readers name = some after ∧
        after.historyCache = some later ∧ held.endOffset ≤ later.endOffset) := by
  have hinvariant := historyInvariant_of_reachable hs
  refine ⟨?_, ?_, ?_⟩
  · intro name reader endInclusive snapshot hcall
    obtain ⟨r, hreader, endOffset, hsnapshot⟩ := hinvariant.call_exact hcall
    refine ⟨?_, r, hreader, ?_⟩
    · intro other otherReader otherSnapshot hother
      obtain ⟨_, _, otherEnd, hotherSnapshot⟩ := hinvariant.call_exact hother
      obtain rfl : endOffset = otherEnd :=
        Option.some.inj (hsnapshot.end_parsed.symm.trans hotherSnapshot.end_parsed)
      obtain ⟨_, updates⟩ := snapshot
      obtain ⟨_, otherUpdates⟩ := otherSnapshot
      congr 1
      · exact hotherSnapshot.endInclusive_eq.trans hsnapshot.endInclusive_eq.symm
      · exact hotherSnapshot.covers.2.trans hsnapshot.covers.2.symm
    · exact fresh_reader_resolves rfl { hsnapshot with }
  · intro name reader held hreader hheld
    have hexact := hinvariant.cache_exact hreader held hheld
    exact ⟨hexact.covers.1, hexact.covers.upTo⟩
  · intro t name before held hrun hreader hheld
    obtain ⟨after, hafter, hgrows⟩ := reader_grows hrun hreader
    obtain ⟨later, hlater, hle⟩ := hgrows.end_le held hheld
    exact ⟨after, later, hafter, hlater, hle⟩

/-- A ledger with two transactions, at offsets 1 and 2. -/
def twoTransactions : Ledger Unit where
  updates := [.transaction "1" (), .transaction "2" ()]
  endOffset := 3
  offsets_valid := by
    intro update hupdate
    rcases List.mem_pair.mp hupdate with rfl | rfl
    · exact ⟨1, by decide⟩
    · exact ⟨2, by decide⟩
  increasing := by decide

/-- A run in which a longer read overtakes a shorter one, and a third call is answered from the window
that the longer one left. -/
theorem incremental_history_transparent_run :
    ∃ s : HistoryState Unit, (historyProtocol Unit).Reachable s ∧
      s.calls 2 = some ⟨0, "1", .resolved ⟨"1", [.transaction "1" ()]⟩⟩ ∧
      ∃ r, s.readers 0 = some r ∧ ∃ fresh, (historyProtocol Unit).Run (.initial s.ledger) fresh ∧
        fresh.readers 0 = some ⟨{ r.options with incrementalHistory := false }, none⟩ ∧
        fresh.calls 0 = some ⟨0, "1", .resolved ⟨"1", [.transaction "1" ()]⟩⟩ := by
  let options : ReaderOptions := { incrementalHistory := true }
  have hanswers : ∀ endInclusive endOffset, parseOffset endInclusive = some endOffset →
      endOffset ≤ 3 → twoTransactions.Answers (twoTransactions.wholePage endInclusive endOffset) := by
    intro endInclusive endOffset hparsed hend lowest highest hlowest hhighest _
    obtain rfl : 0 = lowest := Option.some.inj (parseOffset_zero.symm.trans hlowest)
    obtain rfl : endOffset = highest := Option.some.inj (hparsed.symm.trans hhighest)
    exact ⟨hend, rfl⟩
  have h₀ : (historyProtocol Unit).Reachable (.initial twoTransactions) := .of_init ⟨_, rfl⟩
  have h₁ := h₀.step (HistoryStep.newReader 0 options rfl)
  have h₂ := h₁.step (HistoryStep.readHistory 0 0 ⟨options, none⟩ "2" rfl rfl)
  have h₃ := h₂.step (HistoryStep.readHistory 1 0 ⟨options, none⟩ "3" rfl rfl)
  have h₄ := h₃.step (HistoryStep.prunedAnswered 0 0 ⟨options, none⟩ "2" (.start 0 2 "2" []) "0" rfl rfl)
  have h₅ := h₄.step (HistoryStep.prunedAnswered 1 0 ⟨options, none⟩ "3" (.start 0 3 "3" []) "0" rfl rfl)
  have h₆ := h₅.step (HistoryStep.pageAnswered 0 0 ⟨options, none⟩ "2" (.start 0 2 "2" [])
    (twoTransactions.wholePage "2" 2) rfl rfl (hanswers "2" 2 (by decide) (by decide)))
  have h₇ := h₆.step (HistoryStep.pageAnswered 1 0 ⟨options, none⟩ "3" (.start 0 3 "3" [])
    (twoTransactions.wholePage "3" 3) rfl rfl (hanswers "3" 3 (by decide) (by decide)))
  have h₈ := h₇.step (HistoryStep.rangeReturns 1 0 ⟨options, none⟩ "3" 3
    ⟨"3", twoTransactions.updates⟩ rfl rfl)
  have h₉ := h₈.step (HistoryStep.rangeReturns 0 0
    ⟨options, some ⟨3, twoTransactions.updates⟩⟩ "2" 2 ⟨"2", twoTransactions.updates⟩ rfl rfl)
  have h₁₀ := h₉.step (HistoryStep.readHistory 2 0 ⟨options, some ⟨3, twoTransactions.updates⟩⟩ "1"
    rfl rfl)
  exact ⟨_, h₁₀, rfl, ((incremental_history_transparent h₁₀).1 2 0 "1" _ rfl).2⟩

end CantonSdk.Query.Grpc
