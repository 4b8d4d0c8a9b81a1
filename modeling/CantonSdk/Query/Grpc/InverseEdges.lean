import CantonSdk.Query.Grpc.DatasetColumns

/-!
# Opposite edges are inverse

Every edge of a dataset has an opposite edge, declared with the keys of its two sides exchanged. So a row
leads to another along an edge exactly when that row leads back, wherever neither edge is marked
incomplete. A key that is null leads nowhere, in either direction: its composite key is that of no text.
-/

set_option linter.all false

namespace CantonSdk.Query.Canonical

open CantonSdk.Base

/-- The values of a key that is a text, is null or is not there. -/
def IsKey (values : List QueryValue) : Prop :=
  values = [] ∨ values = [.null] ∨ ∃ text, values = [.text text]

theorem compositeKey_text_ne_null (text : String) : compositeKey [.text text] ≠ compositeKey [.null] := by
  intro h
  have hlist := congrArg String.toList h
  simp [compositeKey, compositeKeyValue, stringify, stringifyItems, jsonString] at hlist

/-- Whether a key is null shows in its composite key. -/
theorem hasNull_iff_compositeKey {values : List QueryValue} (h : IsKey values) :
    hasNull values = true ↔ compositeKey values = compositeKey [.null] := by
  rcases h with rfl | rfl | ⟨text, rfl⟩
  · decide
  · decide
  · simp [hasNull, compositeKey_text_ne_null]

/-- Two edges with the sides of their keys exchanged lead back and forth between the same rows. -/
theorem mem_related_iff_of_swapped {dataset : CompiledDataset} {edge back : QueryEdge}
    (hsource : back.source = edge.target) (htarget : back.target = edge.source)
    (hforth : (dataset.edges edge).complete = true) (hback : (dataset.edges back).complete = true)
    (hsourceValues : ∀ index, dataset.sourceValues back index = dataset.targetValues edge index)
    (htargetValues : ∀ index, dataset.targetValues back index = dataset.sourceValues edge index)
    {row target : Nat} (hrow : row < (dataset.rows edge.source).length)
    (htargetRow : target < (dataset.rows edge.target).length)
    (hrowKey : IsKey (dataset.sourceValues edge row))
    (htargetKey : IsKey (dataset.targetValues edge target)) :
    ∃ targets rows, relatedQueryRows dataset edge row = .ok targets ∧
      relatedQueryRows dataset back target = .ok rows ∧ (target ∈ targets ↔ row ∈ rows) := by
  have hmem : ∀ (null : Bool) (list : List Nat) (index : Nat),
      index ∈ (if null = true then [] else list) ↔ null = false ∧ index ∈ list := by
    intro null list index
    cases null <;> simp
  refine ⟨_, _, relatedQueryRows_eq_ok.mpr ⟨hrow, hforth, rfl⟩,
    relatedQueryRows_eq_ok.mpr ⟨by rwa [hsource], hback, rfl⟩, ?_⟩
  rw [hmem, hmem, List.mem_filter, List.mem_filter, List.mem_range, List.mem_range,
    decide_eq_true_iff, decide_eq_true_iff, hsourceValues, htargetValues, htarget]
  constructor
  · intro h
    obtain ⟨hnull, _, hkeys⟩ := h
    refine ⟨?_, hrow, hkeys.symm⟩
    rw [← Bool.not_eq_true, hasNull_iff_compositeKey htargetKey, hkeys,
      ← hasNull_iff_compositeKey hrowKey, hnull]
    decide
  · intro h
    obtain ⟨hnull, _, hkeys⟩ := h
    refine ⟨?_, htargetRow, hkeys.symm⟩
    rw [← Bool.not_eq_true, hasNull_iff_compositeKey hrowKey, hkeys,
      ← hasNull_iff_compositeKey htargetKey, hnull]
    decide

/-- A complete to-one edge that is not nullable leads to one row. -/
theorem related_singleton {dataset : CompiledDataset} {edge : QueryEdge}
    (hone : edge.cardinality = .one) (hnullable : edge.nullable = false)
    (hcomplete : (dataset.edges edge).complete = true) {row : Nat}
    (hrow : row < (dataset.rows edge.source).length) :
    ∃ target, target < (dataset.rows edge.target).length ∧
      relatedQueryRows dataset edge row = .ok [target] := by
  obtain ⟨hnull, targets, htargets⟩ := dataset.hasTarget hone hnullable hcomplete hrow
  have hlength := dataset.toOne hone htargets
  obtain ⟨htargetsEq, hne⟩ := KeyedMap.mem_groupBy (KeyedMap.get_eq_some.mp htargets)
  obtain ⟨target, rest, rfl⟩ := List.exists_cons_of_ne_nil hne
  obtain rfl : rest = [] := List.eq_nil_of_length_eq_zero (by simpa using hlength)
  have htarget : target ∈ (List.range (dataset.rows edge.target).length).filter fun index =>
      decide (compositeKey (dataset.targetValues edge index)
        = compositeKey (dataset.sourceValues edge row)) := by
    rw [← htargetsEq]
    exact List.mem_singleton_self target
  refine ⟨target, List.mem_range.mp (List.mem_filter.mp htarget).1, ?_⟩
  rw [relatedQueryRows_eq_ok]
  refine ⟨hrow, hcomplete, ?_⟩
  rw [hnull]
  exact htargetsEq

end CantonSdk.Query.Canonical

namespace CantonSdk.Query.Grpc

open CantonSdk.Base CantonSdk.Query.Canonical

variable (rows : GrpcRows) (endInclusive instanceId : String)

theorem isKey_nullable (text : Option String) : IsKey [nullable .text text] := by
  cases text with
  | none => exact Or.inr (Or.inl rfl)
  | some text => exact Or.inr (Or.inr ⟨text, rfl⟩)

/-- A private key of a list of keys is a key if all of them are. -/
theorem isKey_getD {α : Type} {list : List α} {k : α → Option String} (index : Nat) :
    IsKey ((list.map fun entry => [nullable .text (k entry)]).getD index []) := by
  rw [List.getD_eq_getElem?_getD, List.getElem?_map]
  cases list[index]? with
  | none => exact Or.inl rfl
  | some entry => exact isKey_nullable (k entry)

/-- A public key of rows is a key if it is one in every row. -/
theorem isKey_path {α : Type} {list : List α} {toQueryRow : α → QueryRow} {field : String}
    {k : α → Option String}
    (hfield : ∀ entry, (toQueryRow entry).keyValue [field] = nullable .text (k entry)) (index : Nat) :
    IsKey ([[field]].map ((list.map toQueryRow).getD index []).keyValue) := by
  rw [List.getD_eq_getElem?_getD, List.getElem?_map]
  cases list[index]? with
  | none => exact Or.inr (Or.inl rfl)
  | some entry =>
      change IsKey [(toQueryRow entry).keyValue [field]]
      rw [hfield]
      exact isKey_nullable (k entry)

/-- What every edge compares is a text or null. -/
theorem isKey_sourceValues (edge : QueryEdge) (index : Nat) :
    IsKey ((rows.toQueryDataset endInclusive instanceId).sourceValues edge index) := by
  cases edge with
  | contractsContractType => exact isKey_getD (k := some) index
  | contractsCreatedTransaction =>
      exact isKey_path (k := fun row : ContractRow => some row.createdEventOffset) (fun _ => rfl) index
  | contractsArchivedTransaction =>
      exact isKey_path (k := ContractRow.archivedEventOffset) (fun _ => rfl) index
  | contractsExercises =>
      exact isKey_path (k := fun row : ContractRow => some row.contractId) (fun _ => rfl) index
  | contractTypesContracts | contractTypesExercises =>
      exact isKey_getD (k := fun row : ContractTypeRow => some row.pk) index
  | eventsTransaction => exact isKey_getD (k := fun row : EventRow => some row.txIx) index
  | eventsExercises => exact isKey_getD (k := fun row : EventRow => some row.eventId) index
  | exercisesExerciseType => exact isKey_getD (k := fun row : ExerciseRow => some row.tpePk) index
  | exercisesContractType =>
      exact isKey_getD (k := fun row : ExerciseRow => some row.contractTpePk) index
  | exercisesEvent => exact isKey_getD (k := id) index
  | exercisesTransaction => exact isKey_getD (k := ExerciseRow.exercisedAtIx) index
  | exercisesPackage => exact isKey_getD (k := id) index
  | exercisesContract =>
      exact isKey_path (k := fun row : ExerciseRow => some row.contractId) (fun _ => rfl) index
  | exerciseTypesExercises => exact isKey_getD (k := fun row : ExerciseTypeRow => some row.pk) index
  | packagesExercises => exact isKey_getD (k := fun row : PackageRow => some row.id) index
  | transactionsEvents | transactionsExercises =>
      exact isKey_getD (k := fun row : TransactionRow => some row.offset) index
  | transactionsCreatedContracts | transactionsArchivedContracts =>
      exact isKey_path (k := fun row : TransactionRow => some row.ix) (fun _ => rfl) index

theorem isKey_targetValues (edge : QueryEdge) (index : Nat) :
    IsKey ((rows.toQueryDataset endInclusive instanceId).targetValues edge index) := by
  rw [← sourceValues_inverse]
  exact isKey_sourceValues rows endInclusive instanceId edge.inverse index

variable {rows endInclusive instanceId}

/-- In every dataset of a fragment opposite edges are inverse to each other, and an edge that must lead to
one row does. -/
theorem edges_mutually_inverse {locale : Collation} {fragment : GrpcQueryRelationFragment}
    {packages : List GrpcPackageMetadata} {endInclusive instanceId : String} {dataset : CompiledDataset}
    (h : createGrpcQueryDataset locale fragment packages endInclusive instanceId = .ok dataset)
    (edge : QueryEdge) (hcomplete : (dataset.edges edge).complete = true) :
    ((dataset.edges edge.inverse).complete = true →
      ∀ row < (dataset.rows edge.source).length, ∀ target < (dataset.rows edge.target).length,
        ∃ targets rows, relatedQueryRows dataset edge row = .ok targets ∧
          relatedQueryRows dataset edge.inverse target = .ok rows ∧
          (target ∈ targets ↔ row ∈ rows)) ∧
    (edge.cardinality = .one → edge.nullable = false →
      ∀ row < (dataset.rows edge.source).length,
        ∃ target < (dataset.rows edge.target).length,
          relatedQueryRows dataset edge row = .ok [target]) := by
  obtain ⟨_, _, grpcRows, _, hdataset⟩ := createGrpcQueryDataset_ok h
  constructor
  · intro hback row hrow target htarget
    apply mem_related_iff_of_swapped edge.source_inverse edge.target_inverse hcomplete hback
      _ _ hrow htarget
    · rw [hdataset]
      exact isKey_sourceValues grpcRows endInclusive instanceId edge row
    · rw [hdataset]
      exact isKey_targetValues grpcRows endInclusive instanceId edge target
    · rw [hdataset]
      exact sourceValues_inverse grpcRows endInclusive instanceId edge
    · rw [hdataset]
      exact targetValues_inverse grpcRows endInclusive instanceId edge
  · intro hone hnullable row hrow
    exact related_singleton hone hnullable hcomplete hrow

/-- The dataset of a token that has been created and archived. -/
theorem edges_mutually_inverse_run : ∃ fragment dataset,
    mapGrpcQueryRelationFragment .codeUnits archivedToken [] = .ok fragment ∧
    createGrpcQueryDataset .codeUnits fragment [tokenPackage] "5" "ledger" = .ok dataset ∧
    (dataset.edges .exercisesContract).complete = true ∧
    ((dataset.edges QueryEdge.exercisesContract.inverse).complete = true →
      ∀ row < (dataset.rows QueryEdge.exercisesContract.source).length,
        ∀ target < (dataset.rows QueryEdge.exercisesContract.target).length,
          ∃ targets rows, relatedQueryRows dataset .exercisesContract row = .ok targets ∧
            relatedQueryRows dataset QueryEdge.exercisesContract.inverse target = .ok rows ∧
            (target ∈ targets ↔ row ∈ rows)) := by
  have hclosed : ∃ rows ∈ (mapGrpcQueryRelationFragment .codeUnits archivedToken [] >>= fun fragment =>
      grpcRows .codeUnits fragment [tokenPackage]).toOption, rows.Closed := by
    decide +kernel
  obtain ⟨rows, hbuilt, hclosed⟩ := hclosed
  obtain ⟨fragment, hfragment, hbuilt⟩ := bind_eq_ok.mp (toOption_eq_some_iff.mp hbuilt)
  have hdataset := hclosed.dataset (show validSnapshotOffset "5" = .ok () by decide)
    (show "ledger".isEmpty = false by decide) (show normalizeGrpcPackageMetadata [tokenPackage] = .ok () by decide +kernel)
    (List.nodup_singleton _) (by decide +kernel) hbuilt
  have hcomplete : ((rows.toQueryDataset "5" "ledger").edges .exercisesContract).complete = true := rfl
  exact ⟨fragment, _, hfragment, hdataset, hcomplete,
    (edges_mutually_inverse hdataset .exercisesContract hcomplete).1⟩

end CantonSdk.Query.Grpc
