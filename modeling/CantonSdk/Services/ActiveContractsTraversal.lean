import CantonSdk.Base.Decimal
import CantonSdk.Base.Text
import Mathlib.Data.List.Basic

/-!
# The traversal of active contracts

`getActiveContractsPagesLazy` asks for one page after another until a page names no next one. It stops with an error
at a page that belongs to another offset, that carries too many contracts or whose token was seen before, and when
the pages that it may read are used up. What the participant answers is any sequence of answers.
-/

set_option linter.all false

namespace CantonSdk.Services

open CantonSdk.Base

/-- `GetActiveContractsPageRequest`, over the event formats. -/
structure PageRequest (φ : Type) where
  activeAtOffset : Option String
  eventFormat : Option φ
  maxPageSize : Option Int
  pageToken : Option (List UInt8)

/-- `GetActiveContractsPageResponse`, over the contracts. An offset that is not a string is `none`. -/
structure PageResponse (γ : Type) where
  activeAtOffset : Option String
  activeContracts : List γ
  nextPageToken : Option (List UInt8)

/-- The limits of `ActiveContractsTraversalOptions`; its deadline is part of the answers. -/
structure TraversalLimits where
  maxPages : Nat
  maxContracts : Nat
  maxPages_pos : 0 < maxPages
  maxContracts_pos : 0 < maxContracts

inductive TraversalErrorCode
  | activeAtOffsetMismatch | missingActiveAtOffset | repeatedPageToken | maxPagesExceeded | maxContractsExceeded
  deriving DecidableEq

inductive TraversalError (ε : Type)
  | validation
  | activeContracts (code : TraversalErrorCode)
  | transport (error : ε)

/-- What comes of the next request: the deadline has expired and it is not sent, or it fails, or it is answered. -/
inductive Answer (γ ε : Type)
  | expired (error : ε)
  | failed (error : ε)
  | page (response : PageResponse γ)

/-- The requests sent, the pages received, the pages yielded, and how the traversal ended. -/
structure Traversal (φ γ ε : Type) where
  requests : List (PageRequest φ)
  received : List (PageResponse γ)
  yielded : List (PageResponse γ)
  outcome : Except (TraversalError ε) Unit

/-- The local variables of the loop. -/
structure TraversalState (φ : Type) where
  pageRequest : PageRequest φ
  contractsRead : Nat
  activeAtOffset : Option String
  observedPageTokens : List String

variable {φ γ ε : Type}

/-- `Array.from(token).join(",")`. -/
def pageTokenKey (token : List UInt8) : String := ",".intercalate (token.map fun byte => toString byte.toNat)

/-- The token that asks for the next page, where there is one. -/
def PageResponse.continuation (page : PageResponse γ) : Option (List UInt8) :=
  page.nextPageToken.filter (!·.isEmpty)

/-- The checks of a page before it is yielded: its offset and the contracts read so far. -/
def checkPage (request : PageRequest φ) (limits : TraversalLimits) (state : TraversalState φ)
    (response : PageResponse γ) : Except TraversalErrorCode (String × Nat) :=
  match response.activeAtOffset with
  | none => .error .missingActiveAtOffset
  | some offset =>
      if (trim offset.toList).isEmpty then .error .missingActiveAtOffset
      else
        -- the first page is compared with the request, a later one with the first
        if (state.activeAtOffset.or request.activeAtOffset).any (· ≠ offset) then .error .activeAtOffsetMismatch
        else if limits.maxContracts < state.contractsRead + response.activeContracts.length then
          .error .maxContractsExceeded
        else .ok (offset, state.contractsRead + response.activeContracts.length)

/-- The request that asks for the page behind a yielded one. -/
def followUp (request : PageRequest φ) (offset : String) (token : List UInt8) : PageRequest φ :=
  ⟨some offset, request.eventFormat, request.maxPageSize, some token⟩

/-- The loop, while `remaining` more pages may be read. -/
def readPages (request : PageRequest φ) (limits : TraversalLimits) :
    Nat → TraversalState φ → (Nat → Answer γ ε) → Traversal φ γ ε
  | 0, _, _ => ⟨[], [], [], .error (.activeContracts .maxPagesExceeded)⟩
  | remaining + 1, state, answers =>
      match answers 0 with
      | .expired error => ⟨[], [], [], .error (.transport error)⟩
      | .failed error => ⟨[state.pageRequest], [], [], .error (.transport error)⟩
      | .page response =>
          match checkPage request limits state response with
          | .error code => ⟨[state.pageRequest], [response], [], .error (.activeContracts code)⟩
          | .ok (offset, contractsRead) =>
              match response.continuation with
              | none => ⟨[state.pageRequest], [response], [response], .ok ()⟩
              | some token =>
                  if pageTokenKey token ∈ state.observedPageTokens then
                    ⟨[state.pageRequest], [response], [response], .error (.activeContracts .repeatedPageToken)⟩
                  else
                    let next : TraversalState φ := ⟨followUp request offset token, contractsRead, some offset,
                      state.observedPageTokens ++ [pageTokenKey token]⟩
                    let rest := readPages request limits remaining next fun turn => answers (turn + 1)
                    ⟨state.pageRequest :: rest.requests, response :: rest.received, response :: rest.yielded,
                      rest.outcome⟩

/-- `getActiveContractsPagesLazy`, driven to its end. -/
def getActiveContractsPagesLazy (request : PageRequest φ) (limits : TraversalLimits) (answers : Nat → Answer γ ε) :
    Traversal φ γ ε :=
  if (request.pageToken.filter (!·.isEmpty)).isSome then ⟨[], [], [], .error .validation⟩
  else readPages request limits limits.maxPages ⟨request, 0, none, []⟩ answers

/-! ## Page tokens -/

theorem toNat_text_injective {left right : UInt8} (h : (toString left.toNat).toList = (toString right.toNat).toList) :
    left = right := by
  have htext := String.toList_inj.mp h
  have hnat := congrArg decimalValue htext
  rw [decimalValue_toString, decimalValue_toString] at hnat
  exact UInt8.toNat.inj hnat

theorem pageTokenKey_injective {token token' : List UInt8} (htoken : token ≠ []) (htoken' : token' ≠ [])
    (h : pageTokenKey token = pageTokenKey token') : token = token' := by
  have hcomma : ",".toList = [','] := rfl
  have hdigits : ∀ (bytes : List UInt8), ∀ text ∈ (bytes.map fun byte => toString byte.toNat).map String.toList,
      ',' ∉ text := by
    intro bytes text htext hmem
    simp only [List.map_map, List.mem_map, Function.comp_apply] at htext
    obtain ⟨byte, _, rfl⟩ := htext
    rw [Nat.toString_eq_repr, Nat.toList_repr] at hmem
    exact absurd (List.all_eq_true.mp (toDigits_isDigit byte.toNat) ',' hmem) (by decide)
  have hsplit := congrArg (fun text => text.toList.splitOn ',') h
  simp only [pageTokenKey, String.toList_intercalate, hcomma] at hsplit
  rw [List.splitOn_intercalate _ (hdigits token) (by simpa using htoken),
    List.splitOn_intercalate _ (hdigits token') (by simpa using htoken'), List.map_map, List.map_map] at hsplit
  exact List.map_injective_iff.mpr (fun _ _ => toNat_text_injective) hsplit

theorem continuation_ne_nil {page : PageResponse γ} {token : List UInt8} (h : page.continuation = some token) :
    token ≠ [] := by
  rw [PageResponse.continuation, Option.filter_eq_some_iff] at h
  simpa using h.2

/-! ## One turn of the loop -/

/-- A state that was reached by yielding these pages. -/
structure ReachedBy (state : TraversalState φ) (front : List (PageResponse γ)) : Prop where
  contractsRead : state.contractsRead = (front.map (·.activeContracts.length)).sum
  fresh : front = [] → state.activeAtOffset = none
  snapshot : front ≠ [] → ∃ offset, state.activeAtOffset = some offset ∧
    ∀ page ∈ front, page.activeAtOffset = some offset
  tokens : state.observedPageTokens = (front.filterMap (·.continuation)).map pageTokenKey

/-- A page that may follow the yielded ones: it has their offset, or the requested one if it is the first, and its
contracts are not too many. -/
def Acceptable (request : PageRequest φ) (limits : TraversalLimits) (front : List (PageResponse γ))
    (page : PageResponse γ) : Prop :=
  ∃ offset, page.activeAtOffset = some offset ∧ trim offset.toList ≠ [] ∧
    (front = [] → ∀ requested ∈ request.activeAtOffset, offset = requested) ∧
    (∀ earlier ∈ front, earlier.activeAtOffset = some offset) ∧
    ((front ++ [page]).map (·.activeContracts.length)).sum ≤ limits.maxContracts

section Turn

variable {request : PageRequest φ} {limits : TraversalLimits} {state : TraversalState φ}
  {front : List (PageResponse γ)} {page : PageResponse γ}

theorem checkPage_eq_ok {accepted : String × Nat} :
    checkPage request limits state page = .ok accepted ↔
      page.activeAtOffset = some accepted.1 ∧ trim accepted.1.toList ≠ [] ∧
        (∀ expected ∈ state.activeAtOffset.or request.activeAtOffset, expected = accepted.1) ∧
        state.contractsRead + page.activeContracts.length ≤ limits.maxContracts ∧
        accepted.2 = state.contractsRead + page.activeContracts.length := by
  rw [checkPage]
  split
  · rename_i hnone
    simp [hnone]
  · rename_i offset hoffset
    rw [hoffset, Option.some.injEq]
    split_ifs with hblank hexpected hcontracts
    · refine iff_of_false nofun fun h => h.2.1 ?_
      rw [← h.1]
      exact List.isEmpty_iff.mp hblank
    · refine iff_of_false nofun fun h => ?_
      obtain ⟨expected, hmem, hne⟩ := (Option.any_eq_true _ _).mp hexpected
      exact absurd ((h.2.2.1 expected hmem).trans h.1.symm) (by simpa using hne)
    · exact iff_of_false nofun fun h => by omega
    · constructor
      · intro h
        obtain rfl := Except.ok.inj h
        refine ⟨rfl, by simpa using hblank, fun expected hmem => ?_, by omega, rfl⟩
        by_contra hne
        exact hexpected ((Option.any_eq_true _ _).mpr ⟨expected, hmem, by simpa using hne⟩)
      · intro h
        exact congrArg _ (Prod.ext h.1 h.2.2.2.2.symm)

theorem expected_iff (hreached : ReachedBy state front) (offset : String) :
    (∀ expected ∈ state.activeAtOffset.or request.activeAtOffset, expected = offset) ↔
      (front = [] → ∀ requested ∈ request.activeAtOffset, offset = requested) ∧
        ∀ earlier ∈ front, earlier.activeAtOffset = some offset := by
  by_cases hfront : front = []
  · subst hfront
    rw [hreached.fresh rfl, Option.none_or]
    exact ⟨fun h => ⟨fun _ requested hmem => (h requested hmem).symm, nofun⟩,
      fun h expected hmem => (h.1 rfl expected hmem).symm⟩
  · obtain ⟨found, hfound, hpages⟩ := hreached.snapshot hfront
    obtain ⟨first, hfirst⟩ := List.exists_mem_of_ne_nil front hfront
    rw [hfound, Option.some_or]
    constructor
    · intro h
      obtain rfl := h found rfl
      exact ⟨fun hnil => absurd hnil hfront, hpages⟩
    · rintro h expected hmem
      obtain rfl := Option.mem_some_iff.mp hmem
      exact Option.some.inj ((hpages first hfirst).symm.trans (h.2 first hfirst))

theorem acceptable_iff (hreached : ReachedBy state front) :
    Acceptable request limits front page ↔ ∃ accepted, checkPage request limits state page = .ok accepted := by
  have htotal : ((front ++ [page]).map (·.activeContracts.length)).sum
      = state.contractsRead + page.activeContracts.length := by
    rw [hreached.contractsRead, List.map_append, List.sum_append]
    rfl
  constructor
  · rintro ⟨offset, hoffset, hblank, hfirst, hearlier, hcontracts⟩
    exact ⟨(offset, _), checkPage_eq_ok.mpr ⟨hoffset, hblank, (expected_iff hreached offset).mpr ⟨hfirst, hearlier⟩,
      htotal ▸ hcontracts, rfl⟩⟩
  · rintro ⟨accepted, haccepted⟩
    obtain ⟨hoffset, hblank, hexpected, hcontracts, _⟩ := checkPage_eq_ok.mp haccepted
    obtain ⟨hfirst, hearlier⟩ := (expected_iff hreached accepted.1).mp hexpected
    exact ⟨accepted.1, hoffset, hblank, hfirst, hearlier, htotal.le.trans hcontracts⟩

theorem ReachedBy.continued {accepted : String × Nat} {token : List UInt8} (hreached : ReachedBy state front)
    (hcheck : checkPage request limits state page = .ok accepted) (hnext : page.continuation = some token) :
    ReachedBy (⟨followUp request accepted.1 token, accepted.2, some accepted.1,
      state.observedPageTokens ++ [pageTokenKey token]⟩ : TraversalState φ) (front ++ [page]) := by
  obtain ⟨hoffset, _, hexpected, _, hcontracts⟩ := checkPage_eq_ok.mp hcheck
  have hearlier := ((expected_iff hreached accepted.1).mp hexpected).2
  refine ⟨?_, ?_, ?_, ?_⟩
  · rw [List.map_append, List.sum_append, ← hreached.contractsRead]
    exact hcontracts
  · simp
  · refine fun _ => ⟨accepted.1, rfl, fun other hother => ?_⟩
    rcases List.mem_append.mp hother with hother | hother
    · exact hearlier other hother
    · rwa [List.mem_singleton.mp hother]
  · rw [List.filterMap_append, List.map_append, ← hreached.tokens, List.filterMap_cons_some hnext]
    rfl

theorem mem_observed_iff {token : List UInt8} (hreached : ReachedBy state front) (htoken : token ≠ []) :
    pageTokenKey token ∈ state.observedPageTokens ↔ ∃ earlier ∈ front, earlier.continuation = some token := by
  rw [hreached.tokens, List.mem_map]
  constructor
  · rintro ⟨seen, hseen, hkey⟩
    obtain ⟨earlier, hearlier, hcontinuation⟩ := List.mem_filterMap.mp hseen
    obtain rfl := pageTokenKey_injective (continuation_ne_nil hcontinuation) htoken hkey
    exact ⟨earlier, hearlier, hcontinuation⟩
  · rintro ⟨earlier, hearlier, hcontinuation⟩
    exact ⟨token, List.mem_filterMap.mpr ⟨earlier, hearlier, hcontinuation⟩, rfl⟩

end Turn

section Run

variable (request : PageRequest φ) (limits : TraversalLimits)

/-- The runs of the loop: it ends in a turn, or the page is yielded and the next turn begins. -/
inductive Reads : Nat → TraversalState φ → (Nat → Answer γ ε) → Traversal φ γ ε → Prop
  | usedUp {state answers} : Reads 0 state answers ⟨[], [], [], .error (.activeContracts .maxPagesExceeded)⟩
  | expired {remaining state answers error} (h : answers 0 = .expired error) :
      Reads (remaining + 1) state answers ⟨[], [], [], .error (.transport error)⟩
  | failed {remaining state answers error} (h : answers 0 = .failed error) :
      Reads (remaining + 1) state answers ⟨[state.pageRequest], [], [], .error (.transport error)⟩
  | rejected {remaining state answers page code} (h : answers 0 = .page page)
      (hcheck : checkPage request limits state page = .error code) :
      Reads (remaining + 1) state answers ⟨[state.pageRequest], [page], [], .error (.activeContracts code)⟩
  | completed {remaining state answers page accepted} (h : answers 0 = .page page)
      (hcheck : checkPage request limits state page = .ok accepted) (hlast : page.continuation = none) :
      Reads (remaining + 1) state answers ⟨[state.pageRequest], [page], [page], .ok ()⟩
  | repeated {remaining state answers page accepted token} (h : answers 0 = .page page)
      (hcheck : checkPage request limits state page = .ok accepted) (hnext : page.continuation = some token)
      (hseen : pageTokenKey token ∈ state.observedPageTokens) :
      Reads (remaining + 1) state answers
        ⟨[state.pageRequest], [page], [page], .error (.activeContracts .repeatedPageToken)⟩
  | continued {remaining state answers page accepted token rest} (h : answers 0 = .page page)
      (hcheck : checkPage request limits state page = .ok accepted) (hnext : page.continuation = some token)
      (hnew : pageTokenKey token ∉ state.observedPageTokens)
      (hrest : Reads remaining ⟨followUp request accepted.1 token, accepted.2, some accepted.1,
        state.observedPageTokens ++ [pageTokenKey token]⟩ (fun turn => answers (turn + 1)) rest) :
      Reads (remaining + 1) state answers
        ⟨state.pageRequest :: rest.requests, page :: rest.received, page :: rest.yielded, rest.outcome⟩

theorem reads_readPages (remaining : Nat) (state : TraversalState φ) (answers : Nat → Answer γ ε) :
    Reads request limits remaining state answers (readPages request limits remaining state answers) := by
  induction remaining generalizing state answers with
  | zero => exact .usedUp
  | succ remaining ih =>
      rw [readPages]
      split
      · exact .expired ‹_›
      · exact .failed ‹_›
      · rename_i page hanswer
        split
        · exact .rejected hanswer ‹_›
        · rename_i offset contractsRead hcheck
          split
          · exact .completed hanswer hcheck ‹_›
          · rename_i token hnext
            split
            · exact .repeated hanswer hcheck hnext ‹_›
            · exact .continued hanswer hcheck hnext ‹_› (ih _ _)

variable {request limits} {remaining : Nat} {state : TraversalState φ} {answers : Nat → Answer γ ε}
  {traversal : Traversal φ γ ε}

theorem Reads.requests_length (h : Reads request limits remaining state answers traversal) :
    traversal.requests.length ≤ remaining := by
  induction h with
  | continued _ _ _ _ _ ih => exact Nat.succ_le_succ ih
  | _ => simp

theorem Reads.outcome_iff (h : Reads request limits remaining state answers traversal) :
    traversal.outcome = .ok () ↔ ∃ page ∈ traversal.yielded, page.continuation = none := by
  induction h with
  | completed _ _ hlast => simp [hlast]
  | repeated _ _ hnext _ => simp [hnext]
  | continued _ _ hnext _ _ ih => simp [hnext, ih]
  | _ => simp

theorem Reads.contracts (h : Reads request limits remaining state answers traversal)
    (hread : state.contractsRead ≤ limits.maxContracts) :
    state.contractsRead + (traversal.yielded.map (·.activeContracts.length)).sum ≤ limits.maxContracts := by
  induction h with
  | completed _ hcheck _ => simpa using (checkPage_eq_ok.mp hcheck).2.2.2.1
  | repeated _ hcheck _ _ => simpa using (checkPage_eq_ok.mp hcheck).2.2.2.1
  | continued _ hcheck _ _ _ ih =>
      obtain ⟨_, _, _, hcontracts, htotal⟩ := checkPage_eq_ok.mp hcheck
      have hrest := ih (htotal.le.trans hcontracts)
      rw [List.map_cons, List.sum_cons, ← Nat.add_assoc, ← htotal]
      exact hrest
  | _ => simpa using hread

/-- The first request of a run is the one that the state holds. -/
theorem Reads.requests_eq (h : Reads request limits remaining state answers traversal) :
    traversal.requests = [] ∨ traversal.requests = state.pageRequest :: traversal.requests.tail := by
  cases h <;> simp

theorem offset_of_accepted {page : PageResponse γ} {accepted : String × Nat} {offset : String}
    (hcheck : checkPage request limits state page = .ok accepted) (hoffset : state.activeAtOffset = some offset) :
    accepted.1 = offset ∧ page.activeAtOffset = some offset := by
  obtain ⟨hpage, _, hexpected, _⟩ := checkPage_eq_ok.mp hcheck
  have heq : offset = accepted.1 := hexpected offset (by rw [hoffset]; rfl)
  exact ⟨heq.symm, heq ▸ hpage⟩

/-- Once the offset is known and asked for, every page yielded and every request has it. -/
theorem Reads.offsets {offset : String} (h : Reads request limits remaining state answers traversal)
    (hoffset : state.activeAtOffset = some offset) (hasked : state.pageRequest.activeAtOffset = some offset) :
    (∀ page ∈ traversal.yielded, page.activeAtOffset = some offset) ∧
      ∀ asked ∈ traversal.requests, asked.activeAtOffset = some offset := by
  induction h with
  | completed _ hcheck _ => simpa using ⟨(offset_of_accepted hcheck hoffset).2, hasked⟩
  | repeated _ hcheck _ _ => simpa using ⟨(offset_of_accepted hcheck hoffset).2, hasked⟩
  | continued _ hcheck _ _ _ ih =>
      obtain ⟨haccepted, hpage⟩ := offset_of_accepted hcheck hoffset
      obtain ⟨hyielded, hrequests⟩ := ih (congrArg some haccepted) (congrArg some haccepted)
      exact ⟨List.forall_mem_cons.mpr ⟨hpage, hyielded⟩, List.forall_mem_cons.mpr ⟨hasked, hrequests⟩⟩
  | failed _ => simpa using hasked
  | rejected _ _ => simpa using hasked
  | _ => simp

/-- The offset of the first page is the offset of the whole run. -/
theorem Reads.snapshot (h : Reads request limits remaining state answers traversal) :
    ∃ offset, (∀ page ∈ traversal.yielded, page.activeAtOffset = some offset) ∧
      (traversal.yielded ≠ [] → ∀ expected ∈ state.activeAtOffset.or request.activeAtOffset, offset = expected) ∧
      ∀ asked ∈ traversal.requests.tail, asked.activeAtOffset = some offset := by
  cases h with
  | completed _ hcheck _ =>
      obtain ⟨hpage, _, hexpected, _⟩ := checkPage_eq_ok.mp hcheck
      exact ⟨_, by simpa using hpage, fun _ expected hmem => (hexpected expected hmem).symm, by simp⟩
  | repeated _ hcheck _ _ =>
      obtain ⟨hpage, _, hexpected, _⟩ := checkPage_eq_ok.mp hcheck
      exact ⟨_, by simpa using hpage, fun _ expected hmem => (hexpected expected hmem).symm, by simp⟩
  | continued _ hcheck _ _ hrest =>
      obtain ⟨hpage, _, hexpected, _⟩ := checkPage_eq_ok.mp hcheck
      obtain ⟨hyielded, hrequests⟩ := hrest.offsets rfl rfl
      exact ⟨_, List.forall_mem_cons.mpr ⟨hpage, hyielded⟩, fun _ expected hmem => (hexpected expected hmem).symm,
        hrequests⟩
  | _ => exact ⟨"", by simp⟩

/-- Further requests send tokens that were not seen, each once. -/
theorem Reads.tokens {front : List (PageResponse γ)} (h : Reads request limits remaining state answers traversal)
    (hreached : ReachedBy state front) :
    ∃ tokens : List (List UInt8), traversal.requests.tail.map (·.pageToken) = tokens.map some ∧ tokens.Nodup ∧
      ∀ token ∈ tokens, token ≠ [] ∧ ∀ earlier ∈ front, earlier.continuation ≠ some token := by
  induction h generalizing front with
  | continued hanswer hcheck hnext hnew hrest ih =>
      rename_i remaining state answers page accepted token rest
      obtain ⟨tokens, htokens, hnodup, hfresh⟩ := ih (hreached.continued hcheck hnext)
      rw [List.tail_cons]
      rcases hrest.requests_eq with hnone | hsome
      · exact ⟨[], by rw [hnone]; rfl, List.nodup_nil, by simp⟩
      · have hne := continuation_ne_nil hnext
        refine ⟨token :: tokens, ?_, List.nodup_cons.mpr ⟨fun hmem => ?_, hnodup⟩, ?_⟩
        · rw [hsome, List.map_cons, htokens]
          rfl
        · exact (hfresh token hmem).2 page (by simp) hnext
        · rw [mem_observed_iff hreached hne] at hnew
          refine List.forall_mem_cons.mpr ⟨⟨hne, fun earlier hearlier heq => hnew ⟨earlier, hearlier, heq⟩⟩, ?_⟩
          exact fun other hother => ⟨(hfresh other hother).1, fun earlier hearlier =>
            (hfresh other hother).2 earlier (List.mem_append_left _ hearlier)⟩
  | _ => exact ⟨[], by simp, List.nodup_nil, by simp⟩

theorem Reads.answered (h : Reads request limits remaining state answers traversal) {turn : Nat} {page : PageResponse γ}
    (hpage : traversal.received[turn]? = some page) : answers turn = .page page := by
  induction h generalizing turn with
  | usedUp => simp at hpage
  | expired _ => simp at hpage
  | failed _ => simp at hpage
  | continued hanswer _ _ _ _ ih =>
      cases turn with
      | zero => exact Option.some.inj hpage ▸ hanswer
      | succ turn => exact ih hpage
  | _ hanswer =>
      cases turn with
      | zero => exact Option.some.inj hpage ▸ hanswer
      | succ turn => simp at hpage

/-- The received pages are yielded up to the first that is not acceptable. -/
theorem Reads.yielded {front : List (PageResponse γ)} (h : Reads request limits remaining state answers traversal)
    (hreached : ReachedBy state front) :
    (∀ before page after, traversal.yielded = before ++ page :: after →
      Acceptable request limits (front ++ before) page) ∧
    ∃ rejected, traversal.received = traversal.yielded ++ rejected ∧ rejected.length ≤ 1 ∧
      ∀ page ∈ rejected, ¬ Acceptable request limits (front ++ traversal.yielded) page := by
  have hsingle : ∀ {state : TraversalState φ} {front : List (PageResponse γ)} {page : PageResponse γ}
      {accepted : String × Nat}, ReachedBy state front → checkPage request limits state page = .ok accepted →
      ∀ before other after, [page] = before ++ other :: after → Acceptable request limits (front ++ before) other := by
    intro state front page accepted hreached hcheck before other after hsplit
    obtain ⟨rfl, rfl, rfl⟩ : before = [] ∧ other = page ∧ after = [] := by
      cases before <;> simp_all
    rw [List.append_nil]
    exact (acceptable_iff hreached).mpr ⟨accepted, hcheck⟩
  induction h generalizing front with
  | rejected hanswer hcheck =>
      rename_i page code
      refine ⟨by simp, [page], rfl, le_rfl, fun other hother => ?_⟩
      rw [List.mem_singleton.mp hother, List.append_nil, acceptable_iff hreached, hcheck]
      simp
  | completed _ hcheck _ => exact ⟨hsingle hreached hcheck, [], by simp⟩
  | repeated _ hcheck _ _ => exact ⟨hsingle hreached hcheck, [], by simp⟩
  | continued hanswer hcheck hnext hnew hrest ih =>
      rename_i page accepted token rest
      obtain ⟨hyielded, rejected, hreceived, hlength, hrejected⟩ := ih (hreached.continued hcheck hnext)
      refine ⟨fun before other after hsplit => ?_, rejected, by rw [hreceived]; rfl, hlength, by simpa using hrejected⟩
      cases before with
      | nil =>
          obtain ⟨rfl, _⟩ := List.cons.inj hsplit
          rw [List.append_nil]
          exact (acceptable_iff hreached).mpr ⟨accepted, hcheck⟩
      | cons first before =>
          obtain ⟨rfl, htail⟩ := List.cons.inj hsplit
          rw [List.append_cons]
          exact hyielded before other after htail
  | _ => simp

/-- What ends a traversal that may read `most` pages with this error, once `front` and then `yielded` were yielded. -/
def Violation (request : PageRequest φ) (most : Nat) (answers : Nat → Answer γ ε)
    (front yielded received : List (PageResponse γ)) : TraversalError ε → Prop
  | .validation => (request.pageToken.filter (!·.isEmpty)).isSome
  | .transport error => answers yielded.length = .expired error ∨ answers yielded.length = .failed error
  | .activeContracts .maxPagesExceeded => yielded.length = most
  | .activeContracts .repeatedPageToken => ∃ before page token, front ++ yielded = before ++ [page] ∧
      page.continuation = some token ∧ ∃ earlier ∈ before, earlier.continuation = some token
  | .activeContracts _ => ∃ page, received = yielded ++ [page]

theorem checkPage_code {state : TraversalState φ} {page : PageResponse γ} {code : TraversalErrorCode}
    (h : checkPage request limits state page = .error code) :
    code ≠ .maxPagesExceeded ∧ code ≠ .repeatedPageToken := by
  rw [checkPage] at h
  split at h
  · cases h
    simp
  · split_ifs at h <;> cases h <;> simp

theorem Reads.violation {front : List (PageResponse γ)} {error : TraversalError ε}
    (h : Reads request limits remaining state answers traversal) (hreached : ReachedBy state front)
    (herror : traversal.outcome = .error error) :
    Violation request remaining answers front traversal.yielded traversal.received error := by
  induction h generalizing front with
  | usedUp =>
      cases herror
      exact List.length_nil
  | expired hanswer =>
      cases herror
      exact .inl hanswer
  | failed hanswer =>
      cases herror
      exact .inr hanswer
  | rejected hanswer hcheck =>
      rename_i page code
      cases herror
      obtain ⟨husedUp, hrepeated⟩ := checkPage_code hcheck
      cases code with
      | maxPagesExceeded => exact absurd rfl husedUp
      | repeatedPageToken => exact absurd rfl hrepeated
      | _ => exact ⟨page, rfl⟩
  | completed _ _ _ => cases herror
  | repeated hanswer hcheck hnext hseen =>
      rename_i page accepted token
      cases herror
      rw [mem_observed_iff hreached (continuation_ne_nil hnext)] at hseen
      exact ⟨front, page, token, rfl, hnext, hseen⟩
  | continued hanswer hcheck hnext hnew hrest ih =>
      rename_i page accepted token rest
      have hviolation := ih (hreached.continued hcheck hnext) herror
      cases error with
      | validation => exact hviolation
      | transport error => exact hviolation
      | activeContracts code =>
          cases code with
          | maxPagesExceeded => exact congrArg Nat.succ hviolation
          | repeatedPageToken =>
              obtain ⟨before, last, repeated, hsplit, hcontinued⟩ := hviolation
              exact ⟨before, last, repeated, by rw [← hsplit, List.append_cons], hcontinued⟩
          | _ =>
              obtain ⟨rejected, hreceived⟩ := hviolation
              exact ⟨rejected, congrArg (page :: ·) hreceived⟩

end Run

/-! ## The traversal -/

/-- The token that a request sends; none is the same as the empty one. -/
def PageRequest.sentToken (request : PageRequest φ) : List UInt8 := request.pageToken.getD []

/-- A traversal yields the pages that it receives up to the first violation. All have one offset, the requested one if
there is one, and every further request repeats it; no page token is sent twice, and the limits hold. It completes if
and only if it has yielded a page without a next one, and otherwise there was a violation. -/
theorem traversal_consistent (request : PageRequest φ) (limits : TraversalLimits) (answers : Nat → Answer γ ε) :
    let traversal := getActiveContractsPagesLazy request limits answers
    traversal.requests.length ≤ limits.maxPages ∧
    (traversal.requests.map PageRequest.sentToken).Nodup ∧
    (∃ offset, (∀ page ∈ traversal.yielded, page.activeAtOffset = some offset) ∧
      (traversal.yielded ≠ [] → ∀ requested ∈ request.activeAtOffset, offset = requested) ∧
      ∀ asked ∈ traversal.requests.tail, asked.activeAtOffset = some offset) ∧
    (∀ turn page, traversal.received[turn]? = some page → answers turn = .page page) ∧
    (∀ before page after, traversal.yielded = before ++ page :: after → Acceptable request limits before page) ∧
    (∃ rejected, traversal.received = traversal.yielded ++ rejected ∧ rejected.length ≤ 1 ∧
      ∀ page ∈ rejected, ¬ Acceptable request limits traversal.yielded page) ∧
    (traversal.yielded.map (·.activeContracts.length)).sum ≤ limits.maxContracts ∧
    (traversal.outcome = .ok () ↔ ∃ page ∈ traversal.yielded, page.continuation = none) ∧
    (∀ error, traversal.outcome = .error error →
      Violation request limits.maxPages answers [] traversal.yielded traversal.received error) := by
  intro traversal
  by_cases htoken : (request.pageToken.filter (!·.isEmpty)).isSome
  · have htraversal : traversal = ⟨[], [], [], .error .validation⟩ := if_pos htoken
    rw [htraversal]
    refine ⟨Nat.zero_le _, List.nodup_nil, ⟨"", by simp⟩, by simp, by simp, ⟨[], by simp⟩, Nat.zero_le _, by simp, ?_⟩
    rintro error herror
    cases herror
    exact htoken
  · have hreads : Reads request limits limits.maxPages ⟨request, 0, none, []⟩ answers traversal := by
      have htraversal : traversal = readPages request limits limits.maxPages ⟨request, 0, none, []⟩ answers :=
        if_neg htoken
      exact htraversal ▸ reads_readPages request limits _ _ answers
    have hreached : ReachedBy (⟨request, 0, none, []⟩ : TraversalState φ) ([] : List (PageResponse γ)) :=
      ⟨rfl, fun _ => rfl, fun h => absurd rfl h, rfl⟩
    obtain ⟨hyielded, hreceived⟩ := hreads.yielded hreached
    refine ⟨hreads.requests_length, ?_, ?_, fun _ _ => hreads.answered, hyielded, hreceived, ?_, hreads.outcome_iff,
      fun error herror => hreads.violation hreached herror⟩
    · obtain ⟨tokens, htokens, hnodup, hfresh⟩ := hreads.tokens hreached
      have hfirst : request.sentToken = [] := by
        rw [PageRequest.sentToken]
        cases hrequest : request.pageToken with
        | none => rfl
        | some token => simpa [hrequest, Option.filter] using htoken
      have hfurther : traversal.requests.tail.map PageRequest.sentToken = tokens := by
        have hgetD : PageRequest.sentToken (φ := φ) = (fun token => token.getD []) ∘ (·.pageToken) := rfl
        rw [hgetD, ← List.map_map, htokens, List.map_map]
        exact List.map_id tokens
      rcases hreads.requests_eq with hnone | hsome
      · rw [hnone]
        exact List.nodup_nil
      · rw [hsome, List.map_cons, hfurther, hfirst]
        exact List.nodup_cons.mpr ⟨fun hmem => (hfresh [] hmem).1 rfl, hnodup⟩
    · exact hreads.snapshot
    · simpa using hreads.contracts (Nat.zero_le _)

end CantonSdk.Services
