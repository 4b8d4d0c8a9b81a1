import CantonSdk.Query.Canonical.Evaluator
import CantonSdk.Query.Canonical.QueryArguments
import CantonSdk.Query.Grpc.DatasetColumns
import CantonSdk.Query.Grpc.Lifecycle

/-!
# Queries for active contracts

Where the filter of a query proves that a contract is active, archived contracts are left out before the filter is looked at.
No result changes by that: the columns that tell of the lifecycle agree in every row that the mapper builds, so no archived
contract passes such a filter.
-/

set_option linter.all false

namespace CantonSdk.Query.Grpc

open CantonSdk.Base CantonSdk.Query.Canonical

variable {locale : Collation}

/-! ### Rows of the mapper -/

/-- The three columns that tell whether a contract is active say the same. -/
structure ContractRow.Agrees (row : ContractRow) : Prop where
  offset_iff : row.active = true ↔ row.archivedEventOffset = none
  time_iff : row.active = true ↔ row.archivedAt = none

theorem createdRow_agrees (creation : GrpcQueryCreationIdentity) : (createdRow creation).Agrees :=
  ⟨iff_of_true rfl rfl, iff_of_true rfl rfl⟩

theorem archivedRow_agrees (row : ContractRow) (offset : String) (archivedAt : Int) :
    (archivedRow row offset archivedAt).Agrees :=
  ⟨by simp [archivedRow], by simp [archivedRow]⟩

def MapperState.Agrees (s : MapperState) : Prop := ∀ id row, s.contracts.get id = some row → row.Agrees

theorem MapperState.Agrees.set {s : MapperState} (hs : s.Agrees) (id : String) {row : ContractRow} (hrow : row.Agrees) :
    ∀ other found, (s.contracts.set id row).get other = some found → found.Agrees := by
  intro other found h
  rw [KeyedMap.get_set] at h
  split at h
  · exact Option.some.inj h ▸ hrow
  · exact hs other found h

theorem applyPending_agrees {s t : MapperState} {item : PendingEvent} (hs : s.Agrees)
    (h : applyPending locale s item = .ok t) : t.Agrees := by
  rcases applyPending_cases h with ⟨event, creation, _, _, _, rfl⟩ |
    ⟨event, row, _, _, _, ⟨_, rfl⟩ | ⟨target, archivedAt, _, _, _, rfl⟩⟩
  · exact hs.set event.contractId (createdRow_agrees creation)
  · exact hs
  · exact hs.set target.contractId (archivedRow_agrees target item.transaction.offset archivedAt)

theorem history_agrees {items : List PendingEvent} {s t : MapperState} (hs : s.Agrees)
    (h : items.foldlM (applyPending locale) s = .ok t) : t.Agrees := by
  induction items generalizing s with
  | nil =>
      obtain rfl := Except.ok.inj h
      exact hs
  | cons item rest ih =>
      rw [List.foldlM_cons] at h
      obtain ⟨middle, hmiddle, hrest⟩ := bind_eq_ok.mp h
      exact ih (applyPending_agrees hs hmiddle) hrest

theorem reconcileContract_agrees {contractId : String} {existing : Option ContractRow}
    {historical : Option GrpcQueryCreationIdentity} {group : List ActiveContractEntry} {row : ContractRow}
    {creation : GrpcQueryCreationIdentity} (hexisting : ∀ before ∈ existing, before.Agrees)
    (h : reconcileContract locale contractId existing historical group = .ok (row, creation)) : row.Agrees := by
  obtain ⟨_, _, h⟩ := bind_eq_ok.mp h
  obtain ⟨witnesses, _, h⟩ := bind_eq_ok.mp h
  rcases reconciledPair_cases h with ⟨before, beforeCreation, hbefore, _, rfl, rfl⟩ |
    ⟨_, representative, _, created, _, rfl, rfl⟩
  · have hagrees := hexisting before hbefore
    exact ⟨hagrees.offset_iff, hagrees.time_iff⟩
  · have hagrees := createdRow_agrees created
    exact ⟨hagrees.offset_iff, hagrees.time_iff⟩

/-- Neither what the history tells nor the active contracts part the columns, whatever they hold. -/
theorem MapperRun.agrees {source : List Transaction} {activeContracts : List GetActiveContractsResponse}
    {fragment : GrpcQueryRelationFragment} (run : MapperRun locale source activeContracts fragment) {row : ContractRow}
    (hrow : row ∈ fragment.contracts) : row.Agrees := by
  have hempty : MapperState.empty.Agrees := by
    intro id row h
    cases h
  have hhistory := history_agrees hempty run.history_folded
  rw [run.mem_contracts] at hrow
  by_cases hnone : activations run.input.activeEntries row.contractId = []
  · rw [(run.reconciled_spec.untouched _ hnone).1] at hrow
    exact hhistory _ _ hrow
  · obtain ⟨other, creation, hreconciled, hother, _⟩ := run.reconciled_spec.reconciled _ hnone
    obtain rfl := Option.some.inj (hother.symm.trans hrow)
    exact reconcileContract_agrees (fun before hbefore => hhistory _ before hbefore) hreconciled

/-! ### Filters -/

/-- The row of a query is that of an active contract. -/
def IsActive (row : QueryRow) : Prop := row.atPath ["active"] = some (.bool true)

/-- A row that has lost no archive columns. -/
structure ArchiveColumns (row : QueryRow) : Prop where
  active : ∃ active, row.atPath ["active"] = some (.bool active)
  offset : present (row.atPath ["archivedEventOffset"]) = false → IsActive row
  time : present (row.atPath ["archivedAt"]) = false → IsActive row

theorem present_nullable {α : Type} {value : α → QueryValue} (hvalue : ∀ field, present (some (value field)) = true)
    {field : Option α} (h : present (some (nullable value field)) = false) : field = none := by
  cases field with
  | none => rfl
  | some field =>
      rw [show nullable value (some field) = value field from rfl, hvalue] at h
      cases h

theorem ContractRow.Agrees.columns {row : ContractRow} (h : row.Agrees) : ArchiveColumns row.toQueryRow where
  active := ⟨row.active, rfl⟩
  offset hnull := by
    have hnone := present_nullable (fun _ => rfl) (show present (some (nullable .text row.archivedEventOffset)) = false from hnull)
    exact congrArg (fun active => some (QueryValue.bool active)) (h.offset_iff.mpr hnone)
  time hnull := by
    have hnone := present_nullable (fun _ => rfl) (show present (some (nullable .date row.archivedAt)) = false from hnull)
    exact congrArg (fun active => some (QueryValue.bool active)) (h.time_iff.mpr hnone)

section Filters

variable {runtime : JsRuntime} {dataset : CompiledDataset} {index : Nat}

theorem isActive_of_scalar {row : QueryRow} (hrow : ArchiveColumns row) {path : List String} {operator : ScalarOperator}
    {value : QueryValue} (hproves : provesActiveScalar path operator value = true)
    (h : matchesScalar runtime (row.atPath path) operator value = true) : IsActive row := by
  unfold provesActiveScalar at hproves
  split at hproves
  · obtain ⟨active, hactive⟩ := hrow.active
    rw [hactive] at h
    cases active with
    | true => exact hactive
    | false =>
        have htexts : stringify (.bool false) ≠ stringify (.bool true) := by decide
        rw [matchesScalar, Bool.and_eq_true, equal] at h
        have hequal : decide (stringify (.bool false) = stringify (.bool true)) = true := h.2
        exact absurd (of_decide_eq_true hequal) htexts
        all_goals nofun
  · exact hrow.time (by simpa [matchesScalar] using h)
  · exact hrow.offset (by simpa [matchesScalar] using h)
  · cases hproves

mutual

theorem isActive_of_matchesPredicate (hrow : ArchiveColumns (dataset.row .contracts index)) : ∀ predicate : QueryPredicate,
    provesActive predicate = true → matchesPredicate runtime dataset .contracts index predicate = .ok true →
      IsActive (dataset.row .contracts index)
  | .scalar _ _ _, hproves, h => isActive_of_scalar hrow hproves (Except.ok.inj h)
  | .and children, hproves, h => isActive_of_matchesEvery hrow children hproves h
  | .or children, hproves, h => by
      rw [provesActive, Bool.and_eq_true] at hproves
      exact isActive_of_matchesSome hrow children hproves.2 h

/-- All of the children hold, one of which proves it. -/
theorem isActive_of_matchesEvery (hrow : ArchiveColumns (dataset.row .contracts index)) :
    ∀ children : List QueryPredicate, someProvesActive children = true →
      matchesEvery runtime dataset .contracts index children = .ok true → IsActive (dataset.row .contracts index)
  | child :: rest, hproves, h => by
      obtain ⟨holds, hchild, h⟩ := bind_eq_ok.mp h
      cases holds with
      | false => cases h
      | true =>
          rw [someProvesActive, Bool.or_eq_true] at hproves
          rcases hproves with hproves | hproves
          · exact isActive_of_matchesPredicate hrow child hproves hchild
          · exact isActive_of_matchesEvery hrow rest hproves h

/-- One of the children holds, each of which proves it. -/
theorem isActive_of_matchesSome (hrow : ArchiveColumns (dataset.row .contracts index)) :
    ∀ children : List QueryPredicate, everyProvesActive children = true →
      matchesSome runtime dataset .contracts index children = .ok true → IsActive (dataset.row .contracts index)
  | child :: rest, hproves, h => by
      rw [everyProvesActive, Bool.and_eq_true] at hproves
      obtain ⟨holds, hchild, h⟩ := bind_eq_ok.mp h
      cases holds with
      | false => exact isActive_of_matchesSome hrow rest hproves.2 h
      | true => exact isActive_of_matchesPredicate hrow child hproves.1 hchild

end

/-! ### Queries -/

theorem filterChecked_of_agree {α ε : Type} {test other : α → Except ε Bool} {entries kept : List α}
    (hagree : ∀ entry ∈ entries, ∀ keep, test entry = .ok keep → other entry = .ok keep)
    (h : filterChecked test entries = .ok kept) : filterChecked other entries = .ok kept := by
  induction entries generalizing kept with
  | nil => exact h
  | cons entry rest ih =>
      rw [List.forall_mem_cons] at hagree
      obtain ⟨keep, hkeep, h⟩ := bind_eq_ok.mp h
      obtain ⟨others, hothers, h⟩ := bind_eq_ok.mp h
      exact bind_eq_ok.mpr ⟨keep, hagree.1 keep hkeep, bind_eq_ok.mpr ⟨others, ih hagree.2 hothers, h⟩⟩

/-- What is kept of a row stays the same where archived contracts are left out first. -/
theorem keepsRow_activeOnly (hrow : ArchiveColumns (dataset.row .contracts index)) {predicate : QueryPredicate}
    (hproves : provesActive predicate = true) {parties : Option (List String)} {keep : Bool}
    (h : keepsRow runtime dataset .contracts (some predicate) parties false index = .ok keep) :
    keepsRow runtime dataset .contracts (some predicate) parties true index = .ok keep := by
  by_cases hactive : IsActive (dataset.row .contracts index)
  · rw [keepsRow, IsActive.eq_1] at *
    simpa [hactive] using h
  · have hdropped : keep = false := by
      rw [keepsRow] at h
      rw [Bool.false_and, if_neg Bool.false_ne_true] at h
      split at h
      · exact (Except.ok.inj h).symm
      · rw [← Bool.not_eq_true]
        rintro rfl
        exact hactive (isActive_of_matchesPredicate hrow predicate hproves h)
    rw [keepsRow, hdropped]
    exact if_pos (by simpa [IsActive] using hactive)

/-- Every contract of the dataset has its archive columns. -/
def HasArchiveColumns (dataset : CompiledDataset) : Prop := ∀ row ∈ dataset.rows .contracts, ArchiveColumns row

theorem HasArchiveColumns.row (h : HasArchiveColumns dataset) (hindex : index < (dataset.rows .contracts).length) :
    ArchiveColumns (dataset.row .contracts index) := by
  rw [CompiledDataset.row, List.getD_eq_getElem?_getD, List.getElem?_eq_getElem hindex]
  exact h _ (List.getElem_mem hindex)

theorem filtered_activeOnly (h : HasArchiveColumns dataset) {relation : QueryRelation} {predicate : Option QueryPredicate}
    {parties : Option (List String)} {kept : List Nat}
    (hkept : filtered runtime dataset relation predicate parties false = .ok kept) :
    filtered runtime dataset relation predicate parties (activeOnlyOf relation predicate) = .ok kept := by
  cases hguarded : activeOnlyOf relation predicate with
  | false => exact hkept
  | true =>
      rw [activeOnlyOf, Bool.and_eq_true, decide_eq_true_eq, Option.any_eq_true] at hguarded
      obtain ⟨rfl, proof, rfl, hproves⟩ := hguarded
      refine filterChecked_of_agree (fun position hposition keep hkeep => ?_) hkept
      exact keepsRow_activeOnly (h.row (List.mem_range.mp hposition)) hproves hkeep

/-- The query without the step that leaves archived contracts out. -/
def unguarded : NormalizedQuery → NormalizedQuery
  | .findMany query => .findMany { query with activeOnly := false }
  | .count query => .count { query with activeOnly := false }
  | query => query

theorem activeOnly_of_normalizeFindMany {relation : QueryRelation} {args : QueryArgument} {query : NormalizedFindManyQuery}
    (h : normalizeFindMany relation args = .ok query) : query.activeOnly = activeOnlyOf query.relation query.predicate := by
  unfold normalizeFindMany at h
  simp only [bind_eq_ok] at h
  obtain ⟨_, _, _, _, _, _, _, _, _, _, _, _, _, _, _, _, h⟩ := h
  rw [← Except.ok.inj h]

theorem activeOnly_of_normalizeCount {relation : QueryRelation} {args : QueryArgument} {query : NormalizedCountQuery}
    (h : normalizeCount relation args = .ok query) : query.activeOnly = activeOnlyOf query.relation query.predicate := by
  unfold normalizeCount at h
  simp only [bind_eq_ok] at h
  obtain ⟨_, _, _, _, _, _, _, _, h⟩ := h
  rw [← Except.ok.inj h]

theorem execute_of_unguarded (hcolumns : HasArchiveColumns dataset) {kind : QueryKind} {relation : QueryRelation}
    {args : QueryArgument} {query : NormalizedQuery} (hquery : normalizeQuery kind relation args = .ok query)
    {result : Option QueryValue} (h : execute runtime dataset (unguarded query) = .ok result) :
    execute runtime dataset query = .ok result := by
  cases kind with
  | findMany =>
      obtain ⟨found, hfound, hquery⟩ := bind_eq_ok.mp hquery
      obtain rfl := Except.ok.inj hquery
      obtain ⟨results, hresults, h⟩ := bind_eq_ok.mp h
      obtain ⟨kept, hkept, hresults⟩ := bind_eq_ok.mp hresults
      have hguarded := filtered_activeOnly hcolumns hkept
      rw [← activeOnly_of_normalizeFindMany hfound] at hguarded
      exact bind_eq_ok.mpr ⟨results, bind_eq_ok.mpr ⟨kept, hguarded, hresults⟩, h⟩
  | count =>
      obtain ⟨found, hfound, hquery⟩ := bind_eq_ok.mp hquery
      obtain rfl := Except.ok.inj hquery
      obtain ⟨kept, hkept, h⟩ := bind_eq_ok.mp h
      have hguarded := filtered_activeOnly hcolumns hkept
      rw [← activeOnly_of_normalizeCount hfound] at hguarded
      exact bind_eq_ok.mpr ⟨kept, hguarded, h⟩
  | findUnique | aggregate | groupBy =>
      obtain ⟨found, _, hquery⟩ := bind_eq_ok.mp hquery
      obtain rfl := Except.ok.inj hquery
      exact h

end Filters

theorem hasArchiveColumns {source : List Transaction} {activeContracts : List GetActiveContractsResponse}
    {fragment : GrpcQueryRelationFragment} (hmapped : mapGrpcQueryRelationFragment locale source activeContracts = .ok fragment)
    {packages : List GrpcPackageMetadata} {endInclusive instanceId : String} {dataset : CompiledDataset}
    (hdataset : createGrpcQueryDataset locale fragment packages endInclusive instanceId = .ok dataset) :
    HasArchiveColumns dataset := by
  obtain ⟨run⟩ := mapGrpcQueryRelationFragment_ok.mp hmapped
  obtain ⟨_, _, rows, hrows, heq⟩ := createGrpcQueryDataset_ok hdataset
  have hcontracts : rows.contracts = fragment.contracts := by
    unfold grpcRows at hrows
    simp only [bind_eq_ok] at hrows
    obtain ⟨_, _, _, _, _, _, _, _, _, _, hrows⟩ := hrows
    rw [← Except.ok.inj hrows]
  intro row hrow
  rw [heq] at hrow
  obtain ⟨contract, hcontract, rfl⟩ := List.mem_map.mp hrow
  exact (run.agrees (hcontracts ▸ hcontract)).columns

/-- On what is mapped from a ledger a query is kept to active contracts without a change to its result: where the same query
gives a result with archived contracts in its way, it gives that result. -/
theorem activeOnly_keeps_results {source : List Transaction} {activeContracts : List GetActiveContractsResponse}
    {fragment : GrpcQueryRelationFragment} (hmapped : mapGrpcQueryRelationFragment locale source activeContracts = .ok fragment)
    {packages : List GrpcPackageMetadata} {endInclusive instanceId : String} {dataset : CompiledDataset}
    (hdataset : createGrpcQueryDataset locale fragment packages endInclusive instanceId = .ok dataset)
    {kind : QueryKind} {relation : QueryRelation} {args : QueryArgument} {query : NormalizedQuery}
    (hquery : normalizeQuery kind relation args = .ok query) {runtime : JsRuntime} {result : Option QueryValue}
    (h : execute runtime dataset (unguarded query) = .ok result) :
    execute runtime dataset query = .ok result :=
  execute_of_unguarded (hasArchiveColumns hmapped hdataset) hquery h

/-- Counts the contracts that have not been archived at any offset. -/
def countUnarchived : QueryArgument :=
  .object true [("where", .object true [("archivedEventOffset", .object true [("is", .null)])])]

/-- One of two tokens has been archived. -/
theorem activeOnly_keeps_results_count : ∃ fragment dataset query,
    mapGrpcQueryRelationFragment .codeUnits archivedToken [tokenActive "4" "c2"] = .ok fragment ∧
    createGrpcQueryDataset .codeUnits fragment [tokenPackage] "5" "ledger" = .ok dataset ∧
    normalizeQuery .count .contracts countUnarchived = .ok query ∧
    execute plainRuntime dataset query = .ok (some (.number 1)) := by
  have hcounted : (do
      let fragment ← mapGrpcQueryRelationFragment .codeUnits archivedToken [tokenActive "4" "c2"]
      let dataset ← createGrpcQueryDataset .codeUnits fragment [tokenPackage] "5" "ledger"
      match normalizeQuery .count .contracts countUnarchived with
      | .ok query => execute plainRuntime dataset (unguarded query)
      | .error message => .error (.plain message)).toOption = some (some (.number 1)) := by
    decide +kernel
  rw [toOption_eq_some_iff] at hcounted
  obtain ⟨fragment, hfragment, hcounted⟩ := bind_eq_ok.mp hcounted
  obtain ⟨dataset, hdataset, hcounted⟩ := bind_eq_ok.mp hcounted
  cases hquery : normalizeQuery .count .contracts countUnarchived with
  | error message =>
      rw [hquery] at hcounted
      cases hcounted
  | ok query =>
      rw [hquery] at hcounted
      exact ⟨fragment, dataset, query, hfragment, hdataset, rfl,
        activeOnly_keeps_results hfragment hdataset hquery hcounted⟩

end CantonSdk.Query.Grpc
