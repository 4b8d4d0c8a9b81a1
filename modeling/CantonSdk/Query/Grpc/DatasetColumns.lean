import CantonSdk.Query.Canonical.JsonText
import CantonSdk.Query.Grpc.RelationDataset

/-!
# When the rows of a dataset fit together

Every edge of a dataset compares one column of texts with another, and the column it looks its targets up in is the
one that the opposite edge starts from. So what the validation of a dataset asks for can be said of the typed rows:
the columns that are keys repeat nothing, and each text that must lead to a row is in the column of that row.
-/

set_option linter.all false

namespace CantonSdk.Query.Canonical

open CantonSdk.Base

theorem stringifyItems_texts (texts : List String) :
    stringifyItems (texts.map QueryValue.text) = texts.map jsonString := by
  induction texts with
  | nil => rfl
  | cons text rest ih => rw [List.map_cons, stringifyItems, ih, stringify, List.map_cons]

theorem toList_compositeKey_texts (texts : List String) :
    (compositeKey (texts.map QueryValue.text)).toList
      = '[' :: ([','].intercalate (texts.map fun text => (jsonString text).toList) ++ [']']) := by
  have hvalues : (texts.map QueryValue.text).map compositeKeyValue = texts.map QueryValue.text := by
    rw [List.map_map]
    rfl
  rw [compositeKey, hvalues, stringify, stringifyItems_texts, String.toList_append, String.toList_append,
    String.toList_intercalate, List.map_map]
  rfl

/-- A composite key of texts determines them. -/
theorem compositeKey_texts_injective {texts texts' : List String}
    (h : compositeKey (texts.map QueryValue.text) = compositeKey (texts'.map QueryValue.text)) : texts = texts' := by
  have hlists := congrArg String.toList h
  rw [toList_compositeKey_texts, toList_compositeKey_texts] at hlists
  have hhead : ∀ texts : List String, ∀ code ∈ texts.map fun text => (jsonString text).toList,
      ∃ c ∈ code.head?, c ≠ ']' := by
    intro texts code hcode
    obtain ⟨text, _, rfl⟩ := List.mem_map.mp hcode
    exact ⟨'"', by rw [toList_jsonString]; rfl, by decide⟩
  have hread : ∀ code ∈ texts.map fun text => (jsonString text).toList,
      ∀ code' ∈ texts'.map fun text => (jsonString text).toList, EndTogether [',', ']'] code code' := by
    intro code hcode code' hcode' rest rest' _ _ heq
    obtain ⟨text, _, rfl⟩ := List.mem_map.mp hcode
    obtain ⟨text', _, rfl⟩ := List.mem_map.mp hcode'
    rw [(jsonString_append_injective heq).1]
  obtain ⟨hsame, _⟩ := intercalate_injective (by decide) (by decide) (by decide) hread (hhead texts) (hhead texts')
    (List.cons.inj hlists).2
  apply List.map_injective_iff.mpr _ hsame
  intro text text' heq
  exact jsonString_injective (String.toList_inj.mp heq)

theorem compositeKey_text_injective {text text' : String}
    (h : compositeKey [.text text] = compositeKey [.text text']) : text = text' :=
  (List.cons.inj (@compositeKey_texts_injective [text] [text'] h)).1

/-! ## Unique keys -/

/-- Rows that have the paths of a unique key, and no two of them the same values there. -/
theorem validateUniquePaths_ok {relation : QueryRelation} {rows : List QueryRow} {paths : List QueryPath}
    (hne : paths ≠ []) (hpaths : ∀ path ∈ paths, path ∈ datasetPaths relation)
    (hfound : ∀ row ∈ rows, ∀ path ∈ paths, (row.atPath path).isSome = true)
    (hnodup : (rows.map fun row => compositeKey (paths.map row.keyValue)).Nodup) :
    validateUniquePaths relation rows paths = .ok () := by
  refine bind_eq_ok.mpr ⟨(), ?_, bind_eq_ok.mpr ⟨(), ?_, ?_⟩⟩
  · rw [guardThat_eq_ok]
    simpa using hne
  · refine bind_eq_ok.mpr ⟨(), checkAll_eq_ok.mpr ?_, checkAll_eq_ok.mpr ?_⟩
    · intro path hpath
      rw [guardThat_eq_ok, decide_eq_true_iff]
      exact hpaths path hpath
    · intro row hrow
      rw [checkAll_eq_ok]
      intro path hpath
      rw [guardThat_eq_ok]
      exact hfound row hrow path hpath
  · rw [checkDistinct_eq_ok]
    exact ⟨hnodup, fun _ _ => List.not_mem_nil⟩

/-- A unique key of one field that holds a text. -/
theorem validateUniquePaths_text {α : Type} {relation : QueryRelation} {entries : List α} {toQueryRow : α → QueryRow}
    {field : String} {key : α → String} (hfield : [field] ∈ datasetPaths relation)
    (hvalue : ∀ entry, (toQueryRow entry).atPath [field] = some (.text (key entry)))
    (hnodup : (entries.map key).Nodup) :
    validateUniquePaths relation (entries.map toQueryRow) [[field]] = .ok () := by
  apply validateUniquePaths_ok
  · exact List.cons_ne_nil _ _
  · intro path hpath
    obtain rfl := List.mem_singleton.mp hpath
    exact hfield
  · intro row hrow path hpath
    obtain rfl := List.mem_singleton.mp hpath
    obtain ⟨entry, _, rfl⟩ := List.mem_map.mp hrow
    rw [hvalue]
    rfl
  · have hkeys : ((entries.map toQueryRow).map fun row => compositeKey ([[field]].map row.keyValue))
        = (entries.map key).map fun text => compositeKey [.text text] := by
      rw [List.map_map, List.map_map]
      apply List.map_congr_left
      intro entry _
      simp only [Function.comp_apply, List.map_cons, List.map_nil, QueryRow.keyValue, hvalue, Option.getD_some]
    rw [hkeys]
    exact hnodup.map fun _ _ => compositeKey_text_injective

end CantonSdk.Query.Canonical

namespace CantonSdk.Query.Grpc

open CantonSdk.Base CantonSdk.Query.Canonical

/-! ## Columns -/

/-- What an edge compares, one key for each row that it starts from. -/
def GrpcRows.sourceColumn (rows : GrpcRows) : QueryEdge → List (Option String)
  | .contractsContractType => rows.contractKeys.map some
  | .contractsCreatedTransaction => rows.contracts.map fun row => some row.createdEventOffset
  | .contractsArchivedTransaction => rows.contracts.map ContractRow.archivedEventOffset
  | .contractsExercises => rows.contracts.map fun row => some row.contractId
  | .contractTypesContracts | .contractTypesExercises => rows.contractTypes.map fun row => some row.pk
  | .eventsTransaction => rows.events.map fun row => some row.txIx
  | .eventsExercises => rows.events.map fun row => some row.eventId
  | .exercisesExerciseType => rows.exercises.map fun row => some row.tpePk
  | .exercisesContractType => rows.exercises.map fun row => some row.contractTpePk
  | .exercisesEvent => rows.exerciseEvents
  | .exercisesTransaction => rows.exercises.map ExerciseRow.exercisedAtIx
  | .exercisesPackage => rows.exercisePackages
  | .exercisesContract => rows.exercises.map fun row => some row.contractId
  | .exerciseTypesExercises => rows.exerciseTypes.map fun row => some row.pk
  | .packagesExercises => rows.packages.map fun row => some row.id
  | .transactionsEvents | .transactionsExercises => rows.transactions.map fun row => some row.offset
  | .transactionsCreatedContracts | .transactionsArchivedContracts => rows.transactions.map fun row => some row.ix

/-- What an edge looks its targets up by. -/
def GrpcRows.targetColumn (rows : GrpcRows) (edge : QueryEdge) : List (Option String) := rows.sourceColumn edge.inverse

theorem sourceValues_inverse (rows : GrpcRows) (endInclusive instanceId : String) (edge : QueryEdge) (index : Nat) :
    (rows.toQueryDataset endInclusive instanceId).sourceValues edge.inverse index
      = (rows.toQueryDataset endInclusive instanceId).targetValues edge index := by
  cases edge <;> rfl

theorem targetValues_inverse (rows : GrpcRows) (endInclusive instanceId : String) (edge : QueryEdge) (index : Nat) :
    (rows.toQueryDataset endInclusive instanceId).targetValues edge.inverse index
      = (rows.toQueryDataset endInclusive instanceId).sourceValues edge index := by
  cases edge <;> rfl

/-- The keys that stand beside rows are as many as the rows. -/
structure GrpcRows.Aligned (rows : GrpcRows) : Prop where
  contract_keys : rows.contractKeys.length = rows.contracts.length
  exercise_events : rows.exerciseEvents.length = rows.exercises.length
  exercise_packages : rows.exercisePackages.length = rows.exercises.length

section Columns

variable {rows : GrpcRows} {endInclusive instanceId : String}

theorem private_column {α : Type} {list : List α} {k : α → Option String} {index : Nat} {found : Option String}
    (h : (list.map k)[index]? = some found) :
    (list.map fun entry => [nullable .text (k entry)]).getD index [] = [nullable .text found] := by
  rw [List.getElem?_map] at h
  obtain ⟨entry, hentry, rfl⟩ := Option.map_eq_some_iff.mp h
  rw [List.getD_eq_getElem?_getD, List.getElem?_map, hentry]
  rfl

theorem path_column {α : Type} {list : List α} {toQueryRow : α → QueryRow} {field : String} {k : α → Option String}
    {index : Nat} {found : Option String}
    (hfield : ∀ entry, (toQueryRow entry).keyValue [field] = nullable .text (k entry))
    (h : (list.map k)[index]? = some found) :
    [[field]].map ((list.map toQueryRow).getD index []).keyValue = [nullable .text found] := by
  rw [List.getElem?_map] at h
  obtain ⟨entry, hentry, rfl⟩ := Option.map_eq_some_iff.mp h
  rw [List.getD_eq_getElem?_getD, List.getElem?_map, hentry, ← hfield]
  rfl

/-- The row at a place of a column is compared by what the column holds there. -/
theorem sourceValues_column {edge : QueryEdge} {index : Nat} {found : Option String}
    (h : (rows.sourceColumn edge)[index]? = some found) :
    (rows.toQueryDataset endInclusive instanceId).sourceValues edge index = [nullable .text found] := by
  cases edge with
  | contractsContractType => exact private_column (k := some) h
  | contractsCreatedTransaction =>
      exact path_column (k := fun row : ContractRow => some row.createdEventOffset) (fun _ => rfl) h
  | contractsArchivedTransaction => exact path_column (k := ContractRow.archivedEventOffset) (fun _ => rfl) h
  | contractsExercises => exact path_column (k := fun row : ContractRow => some row.contractId) (fun _ => rfl) h
  | contractTypesContracts | contractTypesExercises =>
      exact private_column (k := fun row : ContractTypeRow => some row.pk) h
  | eventsTransaction => exact private_column (k := fun row : EventRow => some row.txIx) h
  | eventsExercises => exact private_column (k := fun row : EventRow => some row.eventId) h
  | exercisesExerciseType => exact private_column (k := fun row : ExerciseRow => some row.tpePk) h
  | exercisesContractType => exact private_column (k := fun row : ExerciseRow => some row.contractTpePk) h
  | exercisesEvent | exercisesPackage => exact private_column (k := id) (by rwa [List.map_id])
  | exercisesTransaction => exact private_column (k := ExerciseRow.exercisedAtIx) h
  | exercisesContract => exact path_column (k := fun row : ExerciseRow => some row.contractId) (fun _ => rfl) h
  | exerciseTypesExercises => exact private_column (k := fun row : ExerciseTypeRow => some row.pk) h
  | packagesExercises => exact private_column (k := fun row : PackageRow => some row.id) h
  | transactionsEvents | transactionsExercises =>
      exact private_column (k := fun row : TransactionRow => some row.offset) h
  | transactionsCreatedContracts | transactionsArchivedContracts =>
      exact path_column (k := fun row : TransactionRow => some row.ix) (fun _ => rfl) h

theorem length_sourceColumn (hrows : rows.Aligned) (edge : QueryEdge) :
    (rows.sourceColumn edge).length
      = ((rows.toQueryDataset endInclusive instanceId).rows edge.source).length := by
  cases edge <;>
    simp [GrpcRows.sourceColumn, GrpcRows.toQueryDataset, QueryEdge.source, hrows.contract_keys, hrows.exercise_events,
      hrows.exercise_packages]

theorem targetValues_column {edge : QueryEdge} {index : Nat} {found : Option String}
    (h : (rows.targetColumn edge)[index]? = some found) :
    (rows.toQueryDataset endInclusive instanceId).targetValues edge index = [nullable .text found] := by
  rw [← sourceValues_inverse]
  exact sourceValues_column h

theorem length_targetColumn (hrows : rows.Aligned) (edge : QueryEdge) :
    (rows.targetColumn edge).length
      = ((rows.toQueryDataset endInclusive instanceId).rows edge.target).length := by
  rw [← edge.source_inverse]
  exact length_sourceColumn hrows edge.inverse

/-! ## Edges -/

theorem validatePrivateKeys_ok {edge : QueryEdge} {source target : List (List QueryValue)}
    {sourceRows targetRows : List QueryRow} (hsource : source.length = sourceRows.length)
    (htarget : target.length = targetRows.length) (hsourceKeys : ∀ key ∈ source, key.length = 1)
    (htargetKeys : ∀ key ∈ target, key.length = 1) :
    validatePrivateKeys edge source target sourceRows targetRows = .ok () := by
  refine bind_eq_ok.mpr ⟨(), guardThat_eq_ok.mpr (decide_eq_true hsource),
    bind_eq_ok.mpr ⟨(), guardThat_eq_ok.mpr (decide_eq_true htarget), ?_⟩⟩
  have hkeys : ∀ key ∈ source ++ target, key.length = 1 := by
    intro key hkey
    rcases List.mem_append.mp hkey with hkey | hkey
    · exact hsourceKeys key hkey
    · exact htargetKeys key hkey
  cases hall : source ++ target with
  | nil => rfl
  | cons first rest =>
      rw [hall, List.forall_mem_cons] at hkeys
      obtain ⟨hfirst, hrest⟩ := hkeys
      have hnonempty : first.isEmpty = false := by
        cases first with
        | nil => cases hfirst
        | cons value values => rfl
      rw [guardThat_eq_ok, hnonempty, Bool.not_false, Bool.true_and, List.all_eq_true]
      intro key hkey
      rw [decide_eq_true_iff, hrest key hkey, hfirst]

/-- Two paths of one field, which every row has. -/
theorem validatePaths_ok {relation : QueryRelation} {rows : List QueryRow} {field label : String}
    (hfield : [field] ∈ datasetPaths relation) (hfound : ∀ row ∈ rows, (row.atPath [field]).isSome = true) :
    validatePaths relation rows [[field]] label = .ok () := by
  refine bind_eq_ok.mpr ⟨(), checkAll_eq_ok.mpr ?_, checkAll_eq_ok.mpr ?_⟩
  · intro path hpath
    obtain rfl := List.mem_singleton.mp hpath
    exact guardThat_eq_ok.mpr (decide_eq_true hfield)
  · intro row hrow
    rw [checkAll_eq_ok]
    intro path hpath
    obtain rfl := List.mem_singleton.mp hpath
    exact guardThat_eq_ok.mpr (hfound row hrow)

theorem validateKeys_paths {dataset : QueryDataset} {edge : QueryEdge} {field field' : String}
    (hkeys : (dataset.edges edge).keys = .paths [[field]] [[field']])
    (hsource : [field] ∈ datasetPaths edge.source) (htarget : [field'] ∈ datasetPaths edge.target)
    (hsourceRows : ∀ row ∈ dataset.rows edge.source, (row.atPath [field]).isSome = true)
    (htargetRows : ∀ row ∈ dataset.rows edge.target, (row.atPath [field']).isSome = true) :
    validateKeys dataset edge = .ok () := by
  rw [validateKeys, hkeys]
  exact bind_eq_ok.mpr ⟨(), guardThat_eq_ok.mpr (decide_eq_true rfl),
    bind_eq_ok.mpr ⟨(), validatePaths_ok hsource hsourceRows, validatePaths_ok htarget htargetRows⟩⟩

theorem forall_mem_rows {α : Type} {list : List α} {toQueryRow : α → QueryRow} {p : QueryRow → Prop}
    (h : ∀ entry, p (toQueryRow entry)) : ∀ row ∈ list.map toQueryRow, p row := by
  intro row hrow
  obtain ⟨entry, _, rfl⟩ := List.mem_map.mp hrow
  exact h entry

theorem length_private {α : Type} {list : List α} {value : α → QueryValue} :
    ∀ key ∈ list.map fun entry => [value entry], key.length = 1 := by
  intro key hkey
  obtain ⟨_, _, rfl⟩ := List.mem_map.mp hkey
  rfl

/-- The keys of every edge have the form that validation asks for. -/
theorem validateKeys_ok (hrows : rows.Aligned) (edge : QueryEdge) :
    validateKeys (rows.toQueryDataset endInclusive instanceId) edge = .ok () := by
  have hsource : (rows.sourceColumn edge).length
      = ((rows.toQueryDataset endInclusive instanceId).rows edge.source).length := length_sourceColumn hrows edge
  have htarget : (rows.targetColumn edge).length
      = ((rows.toQueryDataset endInclusive instanceId).rows edge.target).length := length_targetColumn hrows edge
  cases edge with
  | contractsCreatedTransaction | contractsArchivedTransaction | contractsExercises | exercisesContract
  | transactionsCreatedContracts | transactionsArchivedContracts =>
      exact validateKeys_paths rfl (by decide) (by decide) (forall_mem_rows fun _ => rfl) (forall_mem_rows fun _ => rfl)
  | exercisesEvent | exercisesPackage =>
      exact validatePrivateKeys_ok ((List.length_map _).trans hsource)
        (((List.length_map _).trans (List.length_map _).symm).trans htarget) length_private length_private
  | eventsExercises | packagesExercises =>
      exact validatePrivateKeys_ok (((List.length_map _).trans (List.length_map _).symm).trans hsource)
        ((List.length_map _).trans htarget) length_private length_private
  | _ =>
      exact validatePrivateKeys_ok (((List.length_map _).trans (List.length_map _).symm).trans hsource)
        (((List.length_map _).trans (List.length_map _).symm).trans htarget) length_private length_private

theorem length_le_one {α : Type} {list : List α} (hnodup : list.Nodup) (hsame : ∀ a ∈ list, ∀ b ∈ list, a = b) :
    list.length ≤ 1 := by
  match list with
  | [] => exact Nat.zero_le 1
  | [_] => exact Nat.le_refl 1
  | a :: b :: rest =>
      have heq := hsame a List.mem_cons_self b (List.mem_cons_of_mem _ List.mem_cons_self)
      rw [heq] at hnodup
      exact absurd List.mem_cons_self (List.nodup_cons.mp hnodup).1

section Targets

variable {edge : QueryEdge} {texts : List String}

/-- The row at this place of the targets has the text there as its key. -/
theorem targetValues_text (hcolumn : rows.targetColumn edge = texts.map some) {index : Nat} {text : String}
    (h : texts[index]? = some text) :
    (rows.toQueryDataset endInclusive instanceId).targetValues edge index = [.text text] := by
  have hfound : (rows.targetColumn edge)[index]? = some (some text) := by
    rw [hcolumn, List.getElem?_map, h]
    rfl
  exact targetValues_column hfound

theorem length_targets (hrows : rows.Aligned) (hcolumn : rows.targetColumn edge = texts.map some) :
    ((rows.toQueryDataset endInclusive instanceId).rows edge.target).length = texts.length := by
  rw [← length_targetColumn hrows edge, hcolumn, List.length_map]

/-- A key leads to at most one row where the column of the targets repeats nothing. -/
theorem buckets_le_one (hrows : rows.Aligned) (hcolumn : rows.targetColumn edge = texts.map some)
    (hnodup : texts.Nodup) :
    ((rows.toQueryDataset endInclusive instanceId).buckets edge).values.all
      (fun targets => decide (targets.length ≤ 1)) = true := by
  rw [List.all_eq_true]
  intro targets htargets
  obtain ⟨key, hkey⟩ := KeyedMap.mem_values.mp htargets
  obtain ⟨rfl, _⟩ := KeyedMap.mem_groupBy (KeyedMap.get_eq_some.mp hkey)
  rw [decide_eq_true_iff]
  apply length_le_one (List.nodup_range.filter _)
  intro first hfirst second hsecond
  rw [List.mem_filter, List.mem_range, length_targets hrows hcolumn, decide_eq_true_iff] at hfirst hsecond
  obtain ⟨hfirst, hfirstKey⟩ := hfirst
  obtain ⟨hsecond, hsecondKey⟩ := hsecond
  rw [targetValues_text hcolumn (List.getElem?_eq_getElem hfirst)] at hfirstKey
  rw [targetValues_text hcolumn (List.getElem?_eq_getElem hsecond)] at hsecondKey
  have hsame := compositeKey_text_injective (hfirstKey.trans hsecondKey.symm)
  exact hnodup.getElem_inj_iff.mp hsame

/-- Every row leads to one where its key is in the column of the targets. -/
theorem everySourceHasTarget_ok (hrows : rows.Aligned) (hcolumn : rows.targetColumn edge = texts.map some)
    (hfound : ∀ key ∈ rows.sourceColumn edge, ∃ text ∈ texts, key = some text) :
    everySourceHasTarget (rows.toQueryDataset endInclusive instanceId) edge = true := by
  rw [everySourceHasTarget, List.all_eq_true]
  intro index hindex
  rw [List.mem_range, ← length_sourceColumn hrows edge] at hindex
  obtain ⟨text, htext, hkey⟩ := hfound _ (List.getElem_mem hindex)
  have hvalues : (rows.toQueryDataset endInclusive instanceId).sourceValues edge index = [.text text] :=
    sourceValues_column ((List.getElem?_eq_getElem hindex).trans (congrArg some hkey))
  obtain ⟨target, htarget, rfl⟩ := List.getElem_of_mem htext
  rw [hvalues, Bool.and_eq_true, KeyedMap.has_iff]
  refine ⟨rfl, _, KeyedMap.get_groupBy _ _ _ |>.trans (if_neg ?_)⟩
  apply List.ne_nil_of_mem (a := target)
  rw [List.mem_filter, List.mem_range, length_targets hrows hcolumn, decide_eq_true_iff,
    targetValues_text hcolumn (List.getElem?_eq_getElem htarget)]
  exact ⟨htarget, rfl⟩

end Targets

/-- An edge passes when its targets have keys that repeat nothing and, where it must lead to a row, every key of its
sources is one of them. -/
theorem validateEdge_ok (hrows : rows.Aligned) {edge : QueryEdge}
    (hone : edge.cardinality = .one → ∃ texts : List String, texts.Nodup ∧ rows.targetColumn edge = texts.map some ∧
      (edge.nullable = false → ((rows.toQueryDataset endInclusive instanceId).edges edge).complete = true →
        ∀ key ∈ rows.sourceColumn edge, ∃ text ∈ texts, key = some text)) :
    validateEdge (rows.toQueryDataset endInclusive instanceId) edge = .ok () := by
  refine bind_eq_ok.mpr ⟨(), validateKeys_ok hrows edge, ?_⟩
  split
  · rename_i hcardinality
    obtain ⟨texts, hnodup, hcolumn, hfound⟩ := hone hcardinality
    refine bind_eq_ok.mpr ⟨(), guardThat_eq_ok.mpr (buckets_le_one hrows hcolumn hnodup), ?_⟩
    split
    · rename_i hrequired
      rw [Bool.and_eq_true, Bool.not_eq_true'] at hrequired
      rw [guardThat_eq_ok]
      exact everySourceHasTarget_ok hrows hcolumn (hfound hrequired.1 hrequired.2)
    · rfl
  · rfl

/-! ## Datasets -/

/-- What keeps rows from standing for two things, and which rows have to be there. -/
structure GrpcRows.Closed (rows : GrpcRows) : Prop where
  aligned : rows.Aligned
  contracts_nodup : (rows.contracts.map ContractRow.contractId).Nodup
  contract_types_nodup : (rows.contractTypes.map ContractTypeRow.pk).Nodup
  events_nodup : (rows.events.map EventRow.pk).Nodup
  event_ids_nodup : (rows.events.map EventRow.eventId).Nodup
  exercises_nodup : (rows.exercises.map ExerciseRow.exerciseEventPk).Nodup
  exercises_of_events : ∀ row ∈ rows.exercises, row.exerciseEventPk.isSome = true
  exercise_types_nodup : (rows.exerciseTypes.map ExerciseTypeRow.pk).Nodup
  packages_nodup : (rows.packages.map PackageRow.pk).Nodup
  package_ids_nodup : (rows.packages.map PackageRow.id).Nodup
  transactions_nodup : (rows.transactions.map TransactionRow.ix).Nodup
  transaction_offsets : ∀ row ∈ rows.transactions, row.offset = row.ix
  contract_types : ∀ key ∈ rows.contractKeys, key ∈ rows.contractTypes.map ContractTypeRow.pk
  created_transactions : rows.createdTransactionComplete = true →
    ∀ row ∈ rows.contracts, row.createdEventOffset ∈ rows.transactions.map TransactionRow.ix
  event_transactions : ∀ row ∈ rows.events, row.txIx ∈ rows.transactions.map TransactionRow.ix
  exercise_types : ∀ row ∈ rows.exercises, row.tpePk ∈ rows.exerciseTypes.map ExerciseTypeRow.pk
  exercise_contract_types : ∀ row ∈ rows.exercises,
    row.contractTpePk ∈ rows.contractTypes.map ContractTypeRow.pk
  exercise_packages : ∀ key ∈ rows.exercisePackages, ∃ id ∈ rows.packages.map PackageRow.id, key = some id

instance (rows : GrpcRows) : Decidable rows.Aligned :=
  decidable_of_iff (rows.contractKeys.length = rows.contracts.length ∧
      rows.exerciseEvents.length = rows.exercises.length ∧ rows.exercisePackages.length = rows.exercises.length)
    ⟨fun ⟨hcontracts, hevents, hpackages⟩ => ⟨hcontracts, hevents, hpackages⟩,
      fun ⟨hcontracts, hevents, hpackages⟩ => ⟨hcontracts, hevents, hpackages⟩⟩

instance (rows : GrpcRows) : Decidable rows.Closed :=
  decidable_of_iff (rows.Aligned ∧
      ((rows.contracts.map ContractRow.contractId).Nodup ∧ (rows.contractTypes.map ContractTypeRow.pk).Nodup ∧
        (rows.events.map EventRow.pk).Nodup ∧ (rows.events.map EventRow.eventId).Nodup ∧
        (rows.exercises.map ExerciseRow.exerciseEventPk).Nodup ∧
        (∀ row ∈ rows.exercises, row.exerciseEventPk.isSome = true) ∧
        (rows.exerciseTypes.map ExerciseTypeRow.pk).Nodup ∧ (rows.packages.map PackageRow.pk).Nodup ∧
        (rows.packages.map PackageRow.id).Nodup ∧ (rows.transactions.map TransactionRow.ix).Nodup ∧
        ∀ row ∈ rows.transactions, row.offset = row.ix) ∧
      (∀ key ∈ rows.contractKeys, key ∈ rows.contractTypes.map ContractTypeRow.pk) ∧
      (rows.createdTransactionComplete = true →
        ∀ row ∈ rows.contracts, row.createdEventOffset ∈ rows.transactions.map TransactionRow.ix) ∧
      (∀ row ∈ rows.events, row.txIx ∈ rows.transactions.map TransactionRow.ix) ∧
      (∀ row ∈ rows.exercises, row.tpePk ∈ rows.exerciseTypes.map ExerciseTypeRow.pk) ∧
      (∀ row ∈ rows.exercises, row.contractTpePk ∈ rows.contractTypes.map ContractTypeRow.pk) ∧
      ∀ key ∈ rows.exercisePackages, ∃ id ∈ rows.packages.map PackageRow.id, key = some id)
    ⟨fun ⟨haligned, ⟨hcontracts, htypes, hevents, hids, hexercises, hof, hchoices, hpackages, hpackageIds, htransactions,
          hoffsets⟩, hcontractTypes, hcreated, heventTransactions, hexerciseTypes, hexerciseContracts, hexercisePackages⟩ =>
        ⟨haligned, hcontracts, htypes, hevents, hids, hexercises, hof, hchoices, hpackages, hpackageIds, htransactions,
          hoffsets, hcontractTypes, hcreated, heventTransactions, hexerciseTypes, hexerciseContracts, hexercisePackages⟩,
      fun h => ⟨h.aligned, ⟨h.contracts_nodup, h.contract_types_nodup, h.events_nodup, h.event_ids_nodup,
          h.exercises_nodup, h.exercises_of_events, h.exercise_types_nodup, h.packages_nodup, h.package_ids_nodup,
          h.transactions_nodup, h.transaction_offsets⟩, h.contract_types, h.created_transactions, h.event_transactions,
        h.exercise_types, h.exercise_contract_types, h.exercise_packages⟩⟩

theorem some_of_texts {α : Type} {list : List α} {key : α → String} {texts : List String}
    (h : ∀ entry ∈ list, key entry ∈ texts) :
    ∀ found ∈ list.map fun entry => some (key entry), ∃ text ∈ texts, found = some text := by
  intro found hfound
  obtain ⟨entry, hentry, rfl⟩ := List.mem_map.mp hfound
  exact ⟨key entry, h entry hentry, rfl⟩

theorem GrpcRows.Closed.offsets (hrows : rows.Closed) :
    rows.transactions.map TransactionRow.offset = rows.transactions.map TransactionRow.ix :=
  List.map_congr_left hrows.transaction_offsets

/-- Every edge of rows that fit together passes. -/
theorem GrpcRows.Closed.edge_valid (hrows : rows.Closed) (edge : QueryEdge) :
    validateEdge (rows.toQueryDataset endInclusive instanceId) edge = .ok () := by
  apply validateEdge_ok hrows.aligned
  intro hone
  cases edge with
  | contractsContractType =>
      exact ⟨_, hrows.contract_types_nodup, (List.map_map ..).symm, fun _ _ => some_of_texts hrows.contract_types⟩
  | contractsCreatedTransaction =>
      exact ⟨_, hrows.transactions_nodup, (List.map_map ..).symm,
        fun _ hcomplete => some_of_texts (hrows.created_transactions hcomplete)⟩
  | contractsArchivedTransaction => exact ⟨_, hrows.transactions_nodup, (List.map_map ..).symm, nofun⟩
  | eventsTransaction =>
      refine ⟨_, hrows.transactions_nodup, ?_, fun _ _ => some_of_texts hrows.event_transactions⟩
      rw [← hrows.offsets]
      exact (List.map_map ..).symm
  | exercisesExerciseType =>
      exact ⟨_, hrows.exercise_types_nodup, (List.map_map ..).symm, fun _ _ => some_of_texts hrows.exercise_types⟩
  | exercisesContractType =>
      exact ⟨_, hrows.contract_types_nodup, (List.map_map ..).symm,
        fun _ _ => some_of_texts hrows.exercise_contract_types⟩
  | exercisesEvent => exact ⟨_, hrows.event_ids_nodup, (List.map_map ..).symm, nofun⟩
  | exercisesTransaction =>
      refine ⟨_, hrows.transactions_nodup, ?_, nofun⟩
      rw [← hrows.offsets]
      exact (List.map_map ..).symm
  | exercisesPackage =>
      exact ⟨_, hrows.package_ids_nodup, (List.map_map ..).symm, fun _ _ => hrows.exercise_packages⟩
  | exercisesContract => exact ⟨_, hrows.contracts_nodup, (List.map_map ..).symm, nofun⟩
  | _ => cases hone

/-- Exercises are told apart by their events. -/
theorem GrpcRows.Closed.exercise_keys_nodup (hrows : rows.Closed) :
    ((rows.exercises.map ExerciseRow.toQueryRow).map fun row => compositeKey
      ([["tpePk"], ["contractTpePk"], ["exerciseEventPk"], ["contractId"]].map row.keyValue)).Nodup := by
  have hkeys : ∀ row ∈ rows.exercises,
      compositeKey ([["tpePk"], ["contractTpePk"], ["exerciseEventPk"], ["contractId"]].map
        row.toQueryRow.keyValue)
      = compositeKey ([row.tpePk, row.contractTpePk, row.exerciseEventPk.getD "", row.contractId].map
        QueryValue.text) := by
    intro row hrow
    obtain ⟨pk, hpk⟩ := Option.isSome_iff_exists.mp (hrows.exercises_of_events row hrow)
    have hvalue : row.toQueryRow.keyValue ["exerciseEventPk"] = nullable .text row.exerciseEventPk := rfl
    rw [List.map_cons, List.map_cons, List.map_cons, hvalue, hpk]
    rfl
  rw [List.map_map]
  have hnodup := hrows.exercises_nodup.of_map
  rw [List.nodup_map_iff_inj_on hnodup]
  intro row hrow other hother heq
  have htexts := compositeKey_texts_injective ((hkeys row hrow).symm.trans (heq.trans (hkeys other hother)))
  obtain ⟨pk, hpk⟩ := Option.isSome_iff_exists.mp (hrows.exercises_of_events row hrow)
  obtain ⟨pk', hpk'⟩ := Option.isSome_iff_exists.mp (hrows.exercises_of_events other hother)
  have hsame := (List.cons.inj (List.cons.inj (List.cons.inj htexts).2).2).1
  rw [hpk, hpk', Option.getD_some, Option.getD_some] at hsame
  apply List.inj_on_of_nodup_map hrows.exercises_nodup hrow hother
  rw [hpk, hpk', hsame]

/-- Rows that fit together make a valid dataset. -/
theorem GrpcRows.Closed.valid (hrows : rows.Closed) :
    validateDataset (rows.toQueryDataset endInclusive instanceId) = .ok () := by
  refine bind_eq_ok.mpr ⟨(), checkAll_eq_ok.mpr ?_, checkAll_eq_ok.mpr ?_⟩
  · intro relation _
    rw [checkAll_eq_ok]
    intro paths hpaths
    cases relation with
    | contracts =>
        obtain rfl := List.mem_singleton.mp hpaths
        exact validateUniquePaths_text (by decide) (fun _ => rfl) hrows.contracts_nodup
    | contractTypes =>
        obtain rfl := List.mem_singleton.mp hpaths
        exact validateUniquePaths_text (by decide) (fun _ => rfl) hrows.contract_types_nodup
    | events =>
        obtain rfl := List.mem_singleton.mp hpaths
        exact validateUniquePaths_text (by decide) (fun _ => rfl) hrows.events_nodup
    | exercises =>
        obtain rfl := List.mem_singleton.mp hpaths
        apply validateUniquePaths_ok (List.cons_ne_nil _ _) (by decide) _ hrows.exercise_keys_nodup
        apply forall_mem_rows
        intro row path hpath
        simp only [List.mem_cons, List.not_mem_nil, or_false] at hpath
        rcases hpath with rfl | rfl | rfl | rfl <;> rfl
    | exerciseTypes =>
        obtain rfl := List.mem_singleton.mp hpaths
        exact validateUniquePaths_text (by decide) (fun _ => rfl) hrows.exercise_types_nodup
    | packages =>
        rcases List.mem_cons.mp hpaths with rfl | hpaths
        · exact validateUniquePaths_text (by decide) (fun _ => rfl) hrows.packages_nodup
        · obtain rfl := List.mem_singleton.mp hpaths
          exact validateUniquePaths_text (by decide) (fun _ => rfl) hrows.package_ids_nodup
    | transactions =>
        rcases List.mem_cons.mp hpaths with rfl | hpaths
        · exact validateUniquePaths_text (by decide) (fun _ => rfl) hrows.transactions_nodup
        · obtain rfl := List.mem_singleton.mp hpaths
          have hnodup : (rows.transactions.map TransactionRow.offset).Nodup := by
            rw [hrows.offsets]
            exact hrows.transactions_nodup
          exact validateUniquePaths_text (by decide) (fun _ => rfl) hnodup
    | watermark =>
        obtain rfl := List.mem_singleton.mp hpaths
        refine validateUniquePaths_ok (List.cons_ne_nil _ _) (by decide) ?_ ?_
        · intro row hrow path hpath
          obtain rfl := List.mem_singleton.mp hrow
          obtain rfl := List.mem_singleton.mp hpath
          rfl
        · exact List.nodup_singleton _
  · intro relation _
    rw [checkAll_eq_ok]
    exact fun edge _ => hrows.edge_valid edge

/-- Metadata that can be told apart, and rows that fit together, make a dataset. -/
theorem GrpcRows.Closed.dataset {locale : Collation} {fragment : GrpcQueryRelationFragment}
    {packages : List GrpcPackageMetadata} (hrows : rows.Closed) (hoffset : validSnapshotOffset endInclusive = .ok ())
    (hinstance : instanceId.isEmpty = false) (hpackages : normalizeGrpcPackageMetadata packages = .ok ())
    (hids : (packages.map GrpcPackageMetadata.id).Nodup)
    (htemplates : ((templateEntries packages).map TemplateEntry.identity).Nodup)
    (hbuilt : grpcRows locale fragment packages = .ok rows) :
    createGrpcQueryDataset locale fragment packages endInclusive instanceId
      = .ok ⟨rows.toQueryDataset endInclusive instanceId, hrows.valid⟩ := by
  refine bind_eq_ok.mpr ⟨(), hoffset, bind_eq_ok.mpr ⟨(), guardThat_eq_ok.mpr (by rw [hinstance]; rfl),
    bind_eq_ok.mpr ⟨(), hpackages, bind_eq_ok.mpr ⟨(), checkDistinct_eq_ok.mpr ⟨hids, by simp⟩,
      bind_eq_ok.mpr ⟨(), checkDistinct_eq_ok.mpr ⟨htemplates, by simp⟩, bind_eq_ok.mpr ⟨rows, hbuilt, ?_⟩⟩⟩⟩⟩⟩
  unfold createQueryDataset
  split
  · rfl
  · rename_i error herror
    rw [hrows.valid] at herror
    cases herror

end Columns

end CantonSdk.Query.Grpc
