import CantonSdk.Query.Grpc.IncrementalHistory

/-!
# A history range is read whole or not at all

`readHistoryRangeAsync` as a run over whatever the participant answers: a sequence of pages without end,
each of which may be a rejection. Every page but the last has to move the walk forward and stay short of
the requested end, so the walk is over after as many pages as the range has offsets, whatever the tokens
are and whether or not the number of pages is limited.
-/

set_option linter.all false

namespace CantonSdk.Query.Grpc

open CantonSdk.Base

variable {Body : Type}

/-! ### The loop -/

/-- The loop body from an awaited page to the end of the iteration. -/
def receivePage (options : ReaderOptions) (walk : HistoryWalk Body)
    (response : GetUpdatesPageResponse Body) :
    Except QuerySnapshotIncompleteError (WalkOutcome Body) :=
  match parseOffset response.lowestPageOffsetExclusive,
      parseOffset response.highestPageOffsetInclusive with
  | some lowest, some highest =>
      if lowest ≠ walk.expectedLowestExclusive ∨ highest < lowest ∨ highest > walk.endOffset then
        .error (walk.historyError .pageBoundaryMismatch)
      else (receiveWithin options walk response lowest highest).mapError walk.historyError
  | _, _ => .error (walk.historyError .missingBoundary)

/-- What a service answers; none is a rejection. -/
abbrev Answers (Body : Type) : Type := Nat → Option (GetUpdatesPageResponse Body)

/-- A read resolves, or rejects with an error of the reader or with that of a service. -/
abbrev ReadResult (Body : Type) : Type :=
  Except (Option QuerySnapshotIncompleteError) (HistorySnapshot Body)

/-- The loop, with a limit on its pages or without one; none is a loop that still runs. -/
def readHistoryPages (limit : Option Nat) (options : ReaderOptions) (answers : Answers Body) :
    Nat → HistoryWalk Body → Option (ReadResult Body)
  | 0, _ => none
  | fuel + 1, walk =>
      if limit.any fun limit => decide (walk.pagesRead ≥ limit) then
        some (.error (some (walk.historyError .maxPagesExceeded)))
      else
        match answers walk.pagesRead with
        | none => some (.error none)
        | some response =>
            match receivePage options walk response with
            | .error error => some (.error (some error))
            | .ok (.finished snapshot) => some (.ok snapshot)
            | .ok (.continues next) => readHistoryPages limit options answers fuel next

/-- `readHistoryRangeAsync`. -/
def readHistoryRange (limit : Option Nat) (options : ReaderOptions) (pruned : Option String)
    (answers : Answers Body) (fuel : Nat) (walk : HistoryWalk Body) : Option (ReadResult Body) :=
  match pruned with
  | none => some (.error none)
  | some prunedUpTo =>
      match checkPruned walk prunedUpTo with
      | .error error => some (.error (some error))
      | .ok () => readHistoryPages limit options answers fuel walk

/-- What `historyCache` is once the range has been read. -/
def cacheAfter (options : ReaderOptions) (historyCache : Option (HistoryCacheEntry Body))
    (endOffset : Nat) : ReadResult Body → Option (HistoryCacheEntry Body)
  | .error _ => historyCache
  | .ok snapshot => retainHistory options historyCache endOffset snapshot

/-- `receive` is this body followed by the guard at the head of the next iteration. -/
theorem receive_eq (options : ReaderOptions) (walk : HistoryWalk Body)
    (response : GetUpdatesPageResponse Body) :
    receive options walk response = (receivePage options walk response >>= fun outcome =>
      match outcome with
      | .finished snapshot => .ok (.finished snapshot)
      | .continues next => (checkPages options next).map .continues) := by
  cases hlowest : parseOffset response.lowestPageOffsetExclusive with
  | none =>
      simp only [receive, receivePage, hlowest]
      rfl
  | some lowest =>
      cases hhighest : parseOffset response.highestPageOffsetInclusive with
      | none =>
          simp only [receive, receivePage, hlowest, hhighest]
          rfl
      | some highest =>
          simp only [receive, receivePage, hlowest, hhighest]
          by_cases hboundaries : lowest ≠ walk.expectedLowestExclusive ∨ highest < lowest ∨
              highest > walk.endOffset
          · rw [if_pos hboundaries, if_pos hboundaries]
            rfl
          · rw [if_neg hboundaries, if_neg hboundaries]
            cases receiveWithin options walk response lowest highest with
            | error reason => rfl
            | ok outcome => cases outcome <;> rfl

/-! ### Pages that tile a range -/

/-- The ranges of the pages follow one another from one offset to another. -/
inductive Tiles : Nat → Nat → List (GetUpdatesPageResponse Body) → Prop
  | nil (offset : Nat) : Tiles offset offset []
  | cons {lowest highest last : Nat} {page : GetUpdatesPageResponse Body}
      {rest : List (GetUpdatesPageResponse Body)}
      (hlowest : parseOffset page.lowestPageOffsetExclusive = some lowest)
      (hhighest : parseOffset page.highestPageOffsetInclusive = some highest)
      (hordered : lowest ≤ highest) (hrest : Tiles highest last rest) :
      Tiles lowest last (page :: rest)

/-- The updates have offsets, which strictly increase above one offset and up to another. -/
def IncreasingWithin (low high : Nat) (updates : List (LedgerUpdate Body)) : Prop :=
  ∃ offsets : List Nat, updates.map updateOffset = offsets.map some ∧
    offsets.Pairwise (· < ·) ∧ ∀ offset ∈ offsets, low < offset ∧ offset ≤ high

theorem IncreasingWithin.nil (low high : Nat) : IncreasingWithin low high ([] : List (LedgerUpdate Body)) :=
  ⟨[], rfl, List.Pairwise.nil, fun _ h => absurd h List.not_mem_nil⟩

theorem IncreasingWithin.append {low middle high : Nat} {first second : List (LedgerUpdate Body)}
    (hlow : low ≤ middle) (hhigh : middle ≤ high) (hfirst : IncreasingWithin low middle first)
    (hsecond : IncreasingWithin middle high second) : IncreasingWithin low high (first ++ second) := by
  obtain ⟨before, hbefore, hbeforeOrder, hbeforeBounds⟩ := hfirst
  obtain ⟨after, hafter, hafterOrder, hafterBounds⟩ := hsecond
  refine ⟨before ++ after, by rw [List.map_append, List.map_append, hbefore, hafter], ?_, ?_⟩
  · rw [List.pairwise_append]
    refine ⟨hbeforeOrder, hafterOrder, ?_⟩
    intro a ha b hb
    have := hbeforeBounds a ha
    have := hafterBounds b hb
    omega
  · intro offset hoffset
    cases List.mem_append.mp hoffset with
    | inl hmem =>
        have := hbeforeBounds offset hmem
        omega
    | inr hmem =>
        have := hafterBounds offset hmem
        omega

/-- The check on a page's updates lets them through in order and within the page. -/
theorem checkUpdateOffsets_increasing {lowest highest : Nat} {updates : List (LedgerUpdate Body)}
    {previous last : Option Nat} (h : checkUpdateOffsets lowest highest previous updates = .ok last) :
    ∃ offsets : List Nat, updates.map updateOffset = offsets.map some ∧
      offsets.Pairwise (· < ·) ∧
      ∀ offset ∈ offsets, (lowest < offset ∧ offset ≤ highest) ∧ ∀ p ∈ previous, p < offset := by
  induction updates generalizing previous with
  | nil => exact ⟨[], rfl, List.Pairwise.nil, fun _ h => absurd h List.not_mem_nil⟩
  | cons update rest ih =>
      rw [checkUpdateOffsets] at h
      split at h
      · cases h
      · rename_i offset hoffset
        split at h
        · cases h
        · rename_i hguard
          rw [not_or, not_or] at hguard
          obtain ⟨offsets, hoffsets, hincreasing, hbounds⟩ := ih h
          refine ⟨offset :: offsets, by rw [List.map_cons, List.map_cons, hoffset, hoffsets], ?_, ?_⟩
          · rw [List.pairwise_cons]
            exact ⟨fun other hother => (hbounds other hother).2 offset rfl, hincreasing⟩
          · have hprevious : ∀ p ∈ previous, p < offset := by
              intro p hp
              by_contra hle
              exact hguard.2.2 ⟨p, hp, by omega⟩
            intro other hother
            cases List.mem_cons.mp hother with
            | inl heq =>
                subst heq
                exact ⟨by omega, hprevious⟩
            | inr hmem =>
                obtain ⟨hwithin, habove⟩ := hbounds other hmem
                refine ⟨hwithin, fun p hp => ?_⟩
                have := habove offset rfl
                have := hprevious p hp
                omega

/-! ### One page -/

/-- A page that is accepted continues the walk within the range; it is the last of the range, or another
page follows it and it has moved the walk on. -/
theorem receivePage_ok {options : ReaderOptions} {walk : HistoryWalk Body}
    {response : GetUpdatesPageResponse Body} {outcome : WalkOutcome Body}
    (h : receivePage options walk response = .ok outcome) :
    ∃ highest, parseOffset response.lowestPageOffsetExclusive = some walk.expectedLowestExclusive ∧
      parseOffset response.highestPageOffsetInclusive = some highest ∧
      walk.expectedLowestExclusive ≤ highest ∧ highest ≤ walk.endOffset ∧
      IncreasingWithin walk.expectedLowestExclusive highest response.updates ∧
      ((highest = walk.endOffset ∧
          outcome = .finished ⟨walk.endInclusive, walk.seed ++ (walk.updates ++ response.updates)⟩) ∨
        ∃ tokens token previous, walk.expectedLowestExclusive < highest ∧ highest < walk.endOffset ∧
          outcome = .continues { walk with
            updates := walk.updates ++ response.updates
            observedPageTokens := tokens
            expectedLowestExclusive := highest
            pageToken := token
            pagesRead := walk.pagesRead + 1
            previousUpdateOffset := previous }) := by
  rw [receivePage] at h
  split at h
  · rename_i lowest highest hlowest hhighest
    split at h
    · cases h
    · obtain ⟨rfl, hordered, hend⟩ : lowest = walk.expectedLowestExclusive ∧ lowest ≤ highest ∧
          highest ≤ walk.endOffset := by omega
      refine ⟨highest, hlowest, hhighest, hordered, hend, ?_⟩
      unfold receiveWithin at h
      split at h
      · cases h
      · split at h
        · cases h
        · rename_i previous hoffsets
          obtain ⟨offsets, hmapped, hincreasing, hbounds⟩ := checkUpdateOffsets_increasing hoffsets
          refine ⟨⟨offsets, hmapped, hincreasing, fun offset hoffset => (hbounds offset hoffset).1⟩, ?_⟩
          split at h
          · split at h
            · cases h
            · rename_i hlast
              exact Or.inl ⟨not_not.mp hlast, (Except.ok.inj h).symm⟩
          · split at h
            · cases h
            · split at h
              · cases h
              · split at h
                · cases h
                · exact Or.inr ⟨_, _, _, by omega, by omega, (Except.ok.inj h).symm⟩
  · cases h

/-! ### The walk -/

section Walk

variable {limit : Option Nat} {options : ReaderOptions} {answers : Answers Body} {fuel : Nat}
  {walk : HistoryWalk Body} {result : ReadResult Body}

/-- The walk ends after as many pages as its range still has offsets, and one more. -/
theorem readHistoryPages_ends (hfuel : walk.endOffset - walk.expectedLowestExclusive < fuel) :
    ∃ result, readHistoryPages limit options answers fuel walk = some result := by
  induction fuel generalizing walk with
  | zero => omega
  | succ fuel ih =>
      rw [readHistoryPages]
      split
      · exact ⟨_, rfl⟩
      · split
        · exact ⟨_, rfl⟩
        · split
          · exact ⟨_, rfl⟩
          · exact ⟨_, rfl⟩
          · rename_i next hpage
            obtain ⟨highest, _, _, _, _, _, houtcome⟩ := receivePage_ok hpage
            obtain ⟨_, hfinished⟩ | ⟨tokens, token, previous, hmoves, hshort, hnext⟩ := houtcome
            · cases hfinished
            · obtain rfl := WalkOutcome.continues.inj hnext
              apply ih
              show walk.endOffset - highest < fuel
              omega

/-- More fuel does not change what a walk has ended with. -/
theorem readHistoryPages_of_le {more : Nat} (hle : fuel ≤ more)
    (h : readHistoryPages limit options answers fuel walk = some result) :
    readHistoryPages limit options answers more walk = some result := by
  induction fuel generalizing walk more with
  | zero => cases h
  | succ fuel ih =>
      obtain ⟨more, rfl⟩ : ∃ fewer, more = fewer + 1 := ⟨more - 1, by omega⟩
      rw [readHistoryPages] at h ⊢
      by_cases hlimit : (limit.any fun limit => decide (walk.pagesRead ≥ limit)) = true
      · rw [if_pos hlimit] at h ⊢
        exact h
      · rw [if_neg hlimit] at h ⊢
        split at h
        · exact h
        · split at h
          · exact h
          · exact h
          · exact ih (by omega) h

/-- What is resolved is what the walk held, then the updates of the pages that it still read. -/
theorem readHistoryPages_tiles {snapshot : HistorySnapshot Body}
    (h : readHistoryPages limit options answers fuel walk = some (.ok snapshot)) :
    ∃ pages : List (GetUpdatesPageResponse Body),
      (∀ index page, pages[index]? = some page → answers (walk.pagesRead + index) = some page) ∧
      Tiles walk.expectedLowestExclusive walk.endOffset pages ∧
      IncreasingWithin walk.expectedLowestExclusive walk.endOffset
        (pages.flatMap GetUpdatesPageResponse.updates) ∧
      snapshot = ⟨walk.endInclusive,
        walk.seed ++ (walk.updates ++ pages.flatMap GetUpdatesPageResponse.updates)⟩ := by
  induction fuel generalizing walk with
  | zero => cases h
  | succ fuel ih =>
      rw [readHistoryPages] at h
      split at h
      · cases h
      · split at h
        · cases h
        · rename_i response hanswer
          split at h
          · cases h
          · rename_i finished hpage
            obtain rfl := Except.ok.inj (Option.some.inj h)
            obtain ⟨highest, hlowest, hhighest, hordered, _, hupdates, houtcome⟩ := receivePage_ok hpage
            obtain ⟨rfl, hfinished⟩ | ⟨tokens, token, previous, _, _, hnext⟩ := houtcome
            · refine ⟨[response], ?_, .cons hlowest hhighest hordered (.nil _), ?_, ?_⟩
              · intro index page hget
                cases index with
                | zero => exact hanswer.trans hget
                | succ index => cases hget
              · simpa using hupdates
              · simpa using WalkOutcome.finished.inj hfinished
            · cases hnext
          · rename_i next hpage
            obtain ⟨highest, hlowest, hhighest, hordered, hend, hupdates, houtcome⟩ := receivePage_ok hpage
            obtain ⟨_, hfinished⟩ | ⟨tokens, token, previous, _, _, hnext⟩ := houtcome
            · cases hfinished
            · obtain rfl := WalkOutcome.continues.inj hnext
              obtain ⟨pages, hread, htiles, hwithin, hsnapshot⟩ := ih h
              refine ⟨response :: pages, ?_, .cons hlowest hhighest hordered htiles, ?_, ?_⟩
              · intro index page hget
                cases index with
                | zero => exact hanswer.trans hget
                | succ index =>
                    have hlater := hread index page hget
                    rwa [Nat.add_right_comm, Nat.add_assoc] at hlater
              · rw [List.flatMap_cons]
                exact hupdates.append hordered hend hwithin
              · rw [hsnapshot, List.flatMap_cons, List.append_assoc]

end Walk

/-- A range is read whole, or the read rejects and retains nothing; it ends in either case, after at most
one page more than the range has offsets. -/
theorem history_range_whole (limit : Option Nat) (options : ReaderOptions) (pruned : Option String)
    (answers : Answers Body) (historyCache : Option (HistoryCacheEntry Body))
    (beginExclusive endOffset : Nat) (endInclusive : String) (seed : List (LedgerUpdate Body)) :
    ∃ result : ReadResult Body,
      (∀ fuel > endOffset - beginExclusive,
        readHistoryRange limit options pruned answers fuel
          (.start beginExclusive endOffset endInclusive seed) = some result) ∧
      match result with
      | .error _ => cacheAfter options historyCache endOffset result = historyCache
      | .ok snapshot => ∃ pages : List (GetUpdatesPageResponse Body),
          (∀ index page, pages[index]? = some page → answers index = some page) ∧
          Tiles beginExclusive endOffset pages ∧
          IncreasingWithin beginExclusive endOffset (pages.flatMap GetUpdatesPageResponse.updates) ∧
          snapshot.endInclusive = endInclusive ∧
          snapshot.updates = seed ++ pages.flatMap GetUpdatesPageResponse.updates := by
  have hends : ∃ result : ReadResult Body, ∀ fuel > endOffset - beginExclusive,
      readHistoryRange limit options pruned answers fuel
        (.start beginExclusive endOffset endInclusive seed) = some result := by
    unfold readHistoryRange
    split
    · exact ⟨_, fun _ _ => rfl⟩
    · split
      · exact ⟨_, fun _ _ => rfl⟩
      · have hended : ∃ result, readHistoryPages limit options answers (endOffset - beginExclusive + 1)
            (.start beginExclusive endOffset endInclusive seed) = some result :=
          readHistoryPages_ends (Nat.lt_succ_self _)
        obtain ⟨result, hresult⟩ := hended
        exact ⟨result, fun fuel hfuel => readHistoryPages_of_le hfuel hresult⟩
  obtain ⟨result, hresult⟩ := hends
  refine ⟨result, hresult, ?_⟩
  cases result with
  | error error => rfl
  | ok snapshot =>
      have hread := hresult _ (Nat.lt_succ_self _)
      unfold readHistoryRange at hread
      split at hread
      · cases hread
      · split at hread
        · cases hread
        · obtain ⟨pages, hanswers, htiles, hwithin, rfl⟩ := readHistoryPages_tiles hread
          refine ⟨pages, ?_, htiles, hwithin, rfl, rfl⟩
          intro index page hget
          have hanswer := hanswers index page hget
          rwa [HistoryWalk.start, Nat.zero_add] at hanswer

end CantonSdk.Query.Grpc
