import CantonSdk.Base.Checked
import CantonSdk.Base.Stateful
import CantonSdk.Query.Canonical.NormalForm
import CantonSdk.Query.Pqs.RelationalCompiler

/-!
# Accepted queries that compile

Which of the queries that the normalizer accepts become a statement. The compilers throw at a field, an edge or a group key
that they do not know; a normalized query has none that is unknown to its relation, but the compilers know less than the
normalizer about aggregates and about the groups of contracts.
-/

set_option linter.all false

namespace CantonSdk.Query.Pqs

open CantonSdk.Base CantonSdk.Query.Canonical

/-! ## Compilers that do not throw -/

def Succeeds {α : Type} (x : Compile α) : Prop := ∀ values, ∃ result, x values = .ok result

section Succeeds

variable {α β : Type} {x : Compile α}

theorem succeeds_pure (a : α) : Succeeds (pure a : Compile α) := fun values => ⟨(a, values), rfl⟩

theorem succeeds_bind {f : α → Compile β} (h : Succeeds x) (hnext : ∀ a, Succeeds (f a)) : Succeeds (x >>= f) := by
  intro values
  obtain ⟨result, hresult⟩ := h values
  obtain ⟨final, hfinal⟩ := hnext result.1 result.2
  have hrun : (x >>= f) values = x values >>= fun p => f p.1 p.2 := rfl
  exact ⟨final, by rw [hrun, hresult]; exact hfinal⟩

theorem succeeds_lift_bind {y : Except String α} {f : α → Compile β} (h : ∃ a, y = .ok a) (hnext : ∀ a, y = .ok a → Succeeds (f a)) :
    Succeeds ((y : Compile α) >>= f) := by
  obtain ⟨a, rfl⟩ := h
  exact hnext a rfl

theorem succeeds_ite {p : Prop} [Decidable p] {y : Compile α} (h : p → Succeeds x) (h' : ¬ p → Succeeds y) :
    Succeeds (if p then x else y) := by
  by_cases hp : p
  · rw [if_pos hp]
    exact h hp
  · rw [if_neg hp]
    exact h' hp

theorem succeeds_add (value : SqlValue) : Succeeds (add value) :=
  fun values => ⟨(.placeholder (values.length + 1), values ++ [value]), rfl⟩

theorem succeeds_jsonText (base : Sql) (path : List String) : Succeeds (jsonText base path) :=
  succeeds_bind (succeeds_add _) fun _ => succeeds_pure _

theorem ok_bind_pure {y : Except String α} {f : α → β} (h : ∃ a, y = .ok a) : ∃ b, (y >>= fun a => pure (f a)) = .ok b := by
  obtain ⟨a, rfl⟩ := h
  exact ⟨f a, rfl⟩

/-- A compiler that has not thrown has thrown in none of its steps. -/
theorem of_bind_ok {f : α → Compile β} {values : List SqlValue} {result : β × List SqlValue}
    (h : (x >>= f) values = .ok result) : ∃ first, x values = .ok first ∧ f first.1 first.2 = .ok result :=
  bind_eq_ok.mp h

end Succeeds

section Profile

variable (profile : PqsSchemaProfileV1)

/-! ## Fields -/

theorem pqsColumn_ok {relation : QueryRelation} (hrelation : relation ≠ .contracts) {field : String}
    (hfield : field ∈ (queryRelationMetadata relation).fields) : ∃ column, pqsColumn relation field = .ok column := by
  have hknown : ∀ name ∈ (queryRelationMetadata relation).fields, ((pqsFields relation).lookup name).isSome = true := by
    cases relation with
    | contracts => exact absurd rfl hrelation
    | contractTypes | events | exercises | exerciseTypes | packages | transactions | watermark => decide
  obtain ⟨column, hcolumn⟩ := Option.isSome_iff_exists.mp (hknown field hfield)
  exact ⟨column, by rw [pqsColumn, hcolumn]⟩

theorem physicalField_ok {relation : QueryRelation} (hrelation : relation ≠ .contracts) {field : String}
    (hfield : field ∈ (queryRelationMetadata relation).fields) (tableAlias : SqlAlias) :
    ∃ expression, compileCanonicalPhysicalField profile relation field tableAlias = .ok expression := by
  obtain ⟨column, hcolumn⟩ := pqsColumn_ok hrelation hfield
  rw [compileCanonicalPhysicalField, hcolumn]
  exact ⟨_, rfl⟩

/-- All names that the metadata of a relation has are names of fields. -/
theorem metadata_subset (relation : QueryRelation) :
    (∀ field ∈ (queryRelationMetadata relation).jsonFields, field ∈ (queryRelationMetadata relation).fields) ∧
      (∀ field ∈ (queryRelationMetadata relation).orderFields, field ∈ (queryRelationMetadata relation).fields) ∧
      (∀ field ∈ (queryRelationMetadata relation).groupFields, field ∈ (queryRelationMetadata relation).fields) ∧
      (∀ field ∈ (queryRelationMetadata relation).numericFields, field ∈ (queryRelationMetadata relation).fields) ∧
      ∀ field ∈ (queryRelationMetadata relation).bucketFields, field ∈ (queryRelationMetadata relation).fields := by
  cases relation <;> decide

/-! ## Conditions -/

theorem succeeds_contractPredicateExpression (tableAlias : SqlAlias) {field : String} {rest : List String}
    (hfield : field ∈ (queryRelationMetadata .contracts).fields) (hactive : field ≠ "active") (hwitnesses : field ≠ "witnesses")
    (hpart : field = "templateId" → ∃ part ∈ ["packageId", "moduleName", "entityName"], rest = [part]) :
    Succeeds (contractPredicateExpression profile tableAlias field rest) := by
  simp only [queryRelationMetadata, List.mem_cons, List.not_mem_nil, or_false] at hfield
  rcases hfield with rfl | rfl | rfl | rfl | rfl | rfl | rfl | rfl | rfl | rfl
  · exact succeeds_pure _
  · obtain ⟨part, hmem, rfl⟩ := hpart rfl
    simp only [List.mem_cons, List.not_mem_nil, or_false] at hmem
    rcases hmem with rfl | rfl | rfl <;> exact succeeds_pure _
  · exact succeeds_pure _
  · exact succeeds_jsonText _ _
  · exact absurd rfl hwitnesses
  · exact succeeds_pure _
  · exact succeeds_pure _
  · exact succeeds_pure _
  · exact succeeds_pure _
  · exact absurd rfl hactive

theorem succeeds_canonicalExpression (relation : QueryRelation) (tableAlias : SqlAlias) {field : String} {rest : List String}
    (hfield : field ∈ (queryRelationMetadata relation).fields)
    (hspecial : relation = .contracts → field ≠ "active" ∧ field ≠ "witnesses")
    (hpart : relation = .contracts → field = "templateId" → ∃ part ∈ ["packageId", "moduleName", "entityName"], rest = [part]) :
    Succeeds (canonicalExpression profile relation tableAlias field rest) := by
  refine succeeds_ite (fun hrelation => ?_) fun hrelation => ?_
  · subst hrelation
    exact succeeds_contractPredicateExpression profile tableAlias hfield (hspecial rfl).1 (hspecial rfl).2 (hpart rfl)
  · refine succeeds_lift_bind (physicalField_ok profile hrelation hfield tableAlias) fun physical _ => ?_
    exact succeeds_ite (fun _ => succeeds_pure _) fun _ => succeeds_jsonText _ _

theorem succeeds_scalarCondition (operator : ScalarOperator) (expression column : Sql) (value : QueryValue) :
    Succeeds (scalarCondition operator expression column value) := by
  have hadded {f : Sql → Sql} : Succeeds (do return f (← add (.value value))) :=
    succeeds_bind (succeeds_add _) fun _ => succeeds_pure _
  cases operator with
  | is | isNot => exact succeeds_pure _
  | in_ => exact succeeds_ite (fun _ => succeeds_pure _) fun _ => hadded
  | has | equals | lt | lte | gt | gte | like | ilike => exact hadded

theorem succeeds_compileScalar {relation : QueryRelation} (tableAlias : SqlAlias) {path : List String}
    (hpath : PathFits relation path) (operator : ScalarOperator) (value : QueryValue) :
    Succeeds (compileScalar profile relation tableAlias path operator value) := by
  obtain ⟨field, rest, rfl, hfield, hpart⟩ := hpath
  refine succeeds_ite (fun _ => ?_) fun hactive => succeeds_ite (fun _ => ?_) fun hwitnesses => ?_
  · split <;> exact succeeds_pure _
  · exact succeeds_bind (succeeds_add _) fun _ => succeeds_pure _
  · refine succeeds_lift_bind ?_ fun column _ => ?_
    · split
      · exact ⟨_, rfl⟩
      · next hrelation => exact pqsColumn_ok hrelation hfield
    · have hspecial : relation = .contracts → field ≠ "active" ∧ field ≠ "witnesses" := fun hrelation =>
        ⟨fun heq => hactive ⟨hrelation, heq⟩, fun heq => hwitnesses ⟨hrelation, heq⟩⟩
      refine succeeds_bind (succeeds_canonicalExpression profile relation tableAlias hfield hspecial hpart) fun expression => ?_
      exact succeeds_ite (fun _ => succeeds_scalarCondition _ _ _ _) fun _ => succeeds_scalarCondition _ _ _ _

/-! ## Predicates and includes -/

theorem typeKey_ok (relation : QueryRelation) (hrelation : relation = .contractTypes ∨ relation = .exerciseTypes)
    (tableAlias : SqlAlias) : ∃ key, compileCanonicalPhysicalField profile relation "pk" tableAlias = .ok key := by
  rcases hrelation with rfl | rfl <;> exact physicalField_ok profile (by decide) (by decide) tableAlias

theorem exerciseField_ok (field : String) (hfield : field ∈ (queryRelationMetadata .exercises).fields) (tableAlias : SqlAlias) :
    ∃ expression, compileCanonicalPhysicalField profile .exercises field tableAlias = .ok expression :=
  physicalField_ok profile (by decide) hfield tableAlias

theorem edgeJoin_ok {source : QueryRelation} {edge : QueryEdge} (hsource : edge.source = source) (parentAlias : SqlAlias)
    (targetAlias : Sql) : ∃ join, compileCanonicalPhysicalEdgeJoin profile source edge parentAlias targetAlias = .ok join := by
  subst hsource
  unfold compileCanonicalPhysicalEdgeJoin
  rw [if_neg (not_not.mpr rfl)]
  dsimp only
  split
  · obtain ⟨key, hkey⟩ := typeKey_ok profile .contractTypes (by decide) parentAlias
    exact ⟨_, bind_eq_ok.mpr ⟨key, hkey, rfl⟩⟩
  · obtain ⟨left, hleft⟩ := exerciseField_ok profile "contractTpePk" (by decide) (.named targetAlias)
    obtain ⟨key, hkey⟩ := typeKey_ok profile .contractTypes (by decide) parentAlias
    exact ⟨_, bind_eq_ok.mpr ⟨left, hleft, bind_eq_ok.mpr ⟨key, hkey, rfl⟩⟩⟩
  · obtain ⟨left, hleft⟩ := exerciseField_ok profile "tpePk" (by decide) (.named targetAlias)
    obtain ⟨key, hkey⟩ := typeKey_ok profile .exerciseTypes (by decide) parentAlias
    exact ⟨_, bind_eq_ok.mpr ⟨left, hleft, bind_eq_ok.mpr ⟨key, hkey, rfl⟩⟩⟩
  · exact ⟨_, rfl⟩

mutual

theorem succeeds_compileCanonicalPredicate (relation : QueryRelation) (tableAlias : SqlAlias) :
    ∀ predicate : QueryPredicate, Fits relation predicate →
      Succeeds (compileCanonicalPredicate profile relation tableAlias predicate)
  | .and [], _ | .or [], _ => succeeds_pure _
  | .and (child :: rest), h | .or (child :: rest), h =>
      succeeds_bind (succeeds_compileCanonicalPredicates relation tableAlias (child :: rest) h) fun _ => succeeds_pure _
  | .not child, h =>
      succeeds_bind (succeeds_compileCanonicalPredicate relation tableAlias child h) fun _ => succeeds_pure _
  | .relation edge quantifier predicate, h =>
      succeeds_lift_bind (edgeJoin_ok profile h.1 tableAlias _) fun _ _ =>
        succeeds_bind (succeeds_compileCanonicalPredicate edge.target (.named (edgeAlias edge)) predicate h.2) fun _ =>
          succeeds_pure _
  | .scalar path operator value, h => succeeds_compileScalar profile tableAlias h operator value

theorem succeeds_compileCanonicalPredicates (relation : QueryRelation) (tableAlias : SqlAlias) :
    ∀ predicates : List QueryPredicate, FitAll relation predicates →
      Succeeds (compileCanonicalPredicates profile relation tableAlias predicates)
  | [], _ => succeeds_pure _
  | child :: rest, h =>
      succeeds_bind (succeeds_compileCanonicalPredicate relation tableAlias child h.1) fun _ =>
        succeeds_bind (succeeds_compileCanonicalPredicates relation tableAlias rest h.2) fun _ => succeeds_pure _

end

theorem succeeds_compileFilter {relation : QueryRelation} (tableAlias : SqlAlias) {predicate : Option QueryPredicate}
    (h : ∀ condition ∈ predicate, Fits relation condition) : Succeeds (compileFilter profile relation tableAlias predicate) := by
  cases predicate with
  | none => exact succeeds_pure _
  | some predicate => exact succeeds_compileCanonicalPredicate profile relation tableAlias predicate (h predicate rfl)

/-- The selected fields of a relation, or all of them, are fields of it. -/
theorem selected_subset {relation : QueryRelation} {select : Option NormalizedSelection}
    (h : ∀ selection ∈ select, SelectionFits relation selection) :
    ∀ field ∈ (select.map (·.fields)).getD ((pqsFields relation).map Prod.fst), field ∈ (queryRelationMetadata relation).fields := by
  cases select with
  | none =>
      have hall : ∀ field ∈ (pqsFields relation).map Prod.fst, field ∈ (queryRelationMetadata relation).fields := by
        cases relation <;> decide
      exact hall
  | some selection => exact (h selection rfl).fields

theorem includedFields_ok {target : QueryRelation} {select : Option NormalizedSelection}
    (h : ∀ selection ∈ select, SelectionFits target selection) (tableAlias : SqlAlias) :
    ∃ fields, compileCanonicalIncludedFields profile target select tableAlias = .ok fields := by
  unfold compileCanonicalIncludedFields
  split
  · exact ⟨_, rfl⟩
  · next htarget =>
      refine ok_bind_pure (mapM_succeeds fun field hfield => ?_)
      obtain ⟨expression, hexpression⟩ := physicalField_ok profile htarget (selected_subset h field hfield) tableAlias
      rw [hexpression]
      by_cases hnumeric : field ∈ (queryRelationMetadata target).numericFields
      · exact ⟨_, bind_eq_ok.mpr ⟨expression, rfl, if_pos hnumeric⟩⟩
      · exact ⟨_, bind_eq_ok.mpr ⟨expression, rfl, if_neg hnumeric⟩⟩

/-- The JSON projections of an optional selection are on JSON fields. -/
theorem json_subset {relation : QueryRelation} {select : Option NormalizedSelection}
    (h : ∀ selection ∈ select, SelectionFits relation selection) :
    ∀ projection ∈ (select.map (·.json)).getD [], projection.field ∈ (queryRelationMetadata relation).jsonFields := by
  cases select with
  | none => exact fun _ hprojection => absurd hprojection List.not_mem_nil
  | some selection => exact (h selection rfl).json

theorem includedJsonBase_ok {target : QueryRelation} {field : String}
    (hfield : field ∈ (queryRelationMetadata target).jsonFields) (tableAlias : SqlAlias) :
    ∃ base, includedJsonBase profile target field tableAlias = .ok base := by
  unfold includedJsonBase
  split
  · next htarget =>
      subst htarget
      rw [if_pos (List.mem_singleton.mp hfield)]
      exact ⟨_, rfl⟩
  · next htarget =>
      have hmem := (metadata_subset target).1 field hfield
      obtain ⟨column, hcolumn⟩ := pqsColumn_ok htarget hmem
      split
      · next hnone =>
          rw [pqsColumn, hnone] at hcolumn
          cases hcolumn
      · exact physicalField_ok profile htarget hmem tableAlias

theorem succeeds_compileIncludedJson {target : QueryRelation} (tableAlias : SqlAlias) {json : List NormalizedJsonSelection}
    (h : ∀ projection ∈ json, projection.field ∈ (queryRelationMetadata target).jsonFields) :
    Succeeds (compileIncludedJson profile target tableAlias json) := by
  induction json with
  | nil => exact succeeds_pure _
  | cons projection rest ih =>
      rw [List.forall_mem_cons] at h
      exact succeeds_lift_bind (includedJsonBase_ok profile h.1 tableAlias) fun base _ =>
        succeeds_bind (succeeds_jsonText _ _) fun _ => succeeds_bind (ih h.2) fun _ => succeeds_pure _

theorem succeeds_includedLimit (cardinality : Cardinality) (take : Option Nat) : Succeeds (includedLimit cardinality take) := by
  cases cardinality with
  | one => exact succeeds_pure _
  | many => exact succeeds_bind (succeeds_add _) fun _ => succeeds_pure _

theorem succeeds_includedOffset (cardinality : Cardinality) (skip : Nat) : Succeeds (includedOffset cardinality skip) := by
  cases cardinality with
  | one => exact succeeds_pure _
  | many =>
      exact succeeds_ite (fun _ => succeeds_pure _) fun _ => succeeds_bind (succeeds_add _) fun _ => succeeds_pure _

mutual

theorem succeeds_compileCanonicalPhysicalInclude (source : QueryRelation) (parentAlias : SqlAlias) :
    ∀ include_ : NormalizedInclude, IncludeFits source include_ →
      Succeeds (compileCanonicalPhysicalInclude profile source parentAlias include_)
  | ⟨edge, predicate, select, includes, orderBy, skip, take⟩, h => by
      obtain ⟨hsource, hpredicate, hselect, hincludes, -, -⟩ := h
      rw [compileCanonicalPhysicalInclude]
      refine succeeds_ite (fun hother => absurd hsource hother) fun _ => ?_
      dsimp only
      refine succeeds_lift_bind (includedFields_ok profile hselect _) fun fields _ => ?_
      refine succeeds_bind (succeeds_compileIncludedJson profile _ (json_subset hselect)) fun json => ?_
      refine succeeds_bind (succeeds_compileCanonicalPhysicalIncludes edge.target _ includes hincludes) fun nested => ?_
      refine succeeds_bind (succeeds_compileFilter profile _ hpredicate) fun filter => ?_
      refine succeeds_lift_bind (edgeJoin_ok profile hsource parentAlias _) fun join _ => ?_
      refine succeeds_bind (succeeds_includedLimit _ _) fun limit => ?_
      exact succeeds_bind (succeeds_includedOffset _ _) fun offset => succeeds_pure _

theorem succeeds_compileCanonicalPhysicalIncludes (source : QueryRelation) (parentAlias : SqlAlias) :
    ∀ includes : List NormalizedInclude, IncludesFit source includes →
      Succeeds (compileCanonicalPhysicalIncludes profile source parentAlias includes)
  | [], _ => succeeds_pure _
  | include_ :: rest, h =>
      succeeds_bind (succeeds_compileCanonicalPhysicalInclude source parentAlias include_ h.1) fun _ =>
        succeeds_bind (succeeds_compileCanonicalPhysicalIncludes source parentAlias rest h.2) fun _ => succeeds_pure _

end

/-! ## Clauses -/

theorem succeeds_contractConditions {predicate : Option QueryPredicate} (h : ∀ condition ∈ predicate, Fits .contracts condition)
    (parties : Option (List String)) : Succeeds (contractConditions profile predicate parties) := by
  refine succeeds_bind ?_ fun filter => succeeds_bind ?_ fun witnesses => succeeds_pure _
  · cases predicate with
    | none => exact succeeds_pure _
    | some predicate =>
        exact succeeds_bind (succeeds_compileCanonicalPredicate profile _ _ predicate (h predicate rfl)) fun _ => succeeds_pure _
  · cases parties with
    | none => exact succeeds_pure _
    | some parties => exact succeeds_bind (succeeds_add _) fun _ => succeeds_pure _

theorem succeeds_relationConditions {relation : QueryRelation} (tableAlias : SqlAlias) {predicate : Option QueryPredicate}
    (h : ∀ condition ∈ predicate, Fits relation condition) : Succeeds (relationConditions profile relation tableAlias predicate) := by
  cases predicate with
  | none => exact succeeds_pure _
  | some predicate =>
      exact succeeds_bind (succeeds_compileCanonicalPredicate profile _ _ predicate (h predicate rfl)) fun _ => succeeds_pure _

theorem succeeds_limitClause (take : Option Nat) : Succeeds (limitClause take) := by
  cases take with
  | none => exact succeeds_pure _
  | some take => exact succeeds_bind (succeeds_add _) fun _ => succeeds_pure _

theorem succeeds_offsetClause (skip : Nat) : Succeeds (offsetClause skip) := by
  unfold offsetClause
  split
  · exact succeeds_pure _
  · exact succeeds_bind (succeeds_add _) fun _ => succeeds_pure _

theorem succeeds_limitClauses (take : Option Nat) : Succeeds (limitClauses take) :=
  succeeds_ite (fun _ => succeeds_pure _) fun _ => succeeds_bind (succeeds_limitClause take) fun _ => succeeds_pure _

theorem succeeds_offsetClauses (skip : Nat) : Succeeds (offsetClauses skip) :=
  succeeds_ite (fun _ => succeeds_pure _) fun _ => succeeds_bind (succeeds_offsetClause skip) fun _ => succeeds_pure _

theorem rootSource_ok (relation : QueryRelation) : ∃ source, logicalTypeRootSource profile relation = .ok source := by
  unfold logicalTypeRootSource
  split
  · exact ⟨_, rfl⟩
  · next htype =>
      have hrelation : relation = .contractTypes ∨ relation = .exerciseTypes := by
        by_contra hother
        exact htype (not_or.mp hother)
      exact ok_bind_pure (typeKey_ok profile relation hrelation _)

theorem selectedFields_ok {relation : QueryRelation} (hrelation : relation ≠ .contracts) {select : Option NormalizedSelection}
    (h : ∀ selection ∈ select, SelectionFits relation selection) :
    ∃ fields, selectedCanonicalFields profile relation select = .ok fields := by
  have hsubset := selected_subset h
  obtain ⟨columns, hcolumns⟩ := mapM_succeeds fun field hfield => pqsColumn_ok hrelation (hsubset field hfield)
  obtain ⟨fields, hfields⟩ : ∃ fields, (((select.map (·.fields)).getD ((pqsFields relation).map Prod.fst)).mapM fun name => do
      let expression ← compileCanonicalPhysicalField profile relation name .none
      return named expression (.identifier name)) = .ok fields :=
    mapM_succeeds fun field hfield => ok_bind_pure (physicalField_ok profile hrelation (hsubset field hfield) .none)
  have hsome : (((select.map (·.fields)).getD ((pqsFields relation).map Prod.fst)).isEmpty
      && ((select.map (·.json)).getD []).isEmpty) = false := by
    cases select with
    | none => cases relation <;> first | exact absurd rfl hrelation | rfl
    | some selection => exact (h selection rfl).notEmpty
  refine ⟨fields, ?_⟩
  unfold selectedCanonicalFields
  refine bind_eq_ok.mpr ⟨columns, hcolumns, ?_⟩
  rw [hsome]
  exact hfields

theorem succeeds_jsonSelections {relation : QueryRelation} (hrelation : relation ≠ .contracts)
    {json : List NormalizedJsonSelection} (h : ∀ projection ∈ json, projection.field ∈ (queryRelationMetadata relation).jsonFields) :
    Succeeds (compileCanonicalJsonSelections profile relation json) := by
  induction json with
  | nil => exact succeeds_pure _
  | cons projection rest ih =>
      rw [List.forall_mem_cons] at h
      have hfield := (metadata_subset relation).1 _ h.1
      rw [compileCanonicalJsonSelections, if_neg (not_not.mpr h.1)]
      exact succeeds_lift_bind (physicalField_ok profile hrelation hfield _) fun base _ =>
        succeeds_bind (succeeds_jsonText _ _) fun _ => succeeds_bind (ih h.2) fun _ => succeeds_pure _

theorem succeeds_contractJson (json : List NormalizedJsonSelection) : Succeeds (compileContractJson json) := by
  induction json with
  | nil => exact succeeds_pure _
  | cons projection rest ih => exact succeeds_bind (succeeds_jsonText _ _) fun _ => succeeds_bind ih fun _ => succeeds_pure _

theorem relationOrderBy_ok {relation : QueryRelation} (hrelation : relation ≠ .contracts) {orderBy : List NormalizedOrder}
    (h : OrderFits relation orderBy) : ∃ clauses, compileRelationOrderBy profile relation orderBy = .ok clauses := by
  unfold compileRelationOrderBy
  split
  · exact ⟨_, rfl⟩
  · refine ok_bind_pure (mapM_succeeds fun order horder => ok_bind_pure ?_)
    obtain ⟨field, hfield, hpath⟩ := h order horder
    rw [hpath]
    exact physicalField_ok profile hrelation ((metadata_subset relation).2.1 field hfield) .none

/-! ## Rows and counts -/

theorem succeeds_contractFindMany {query : NormalizedFindManyQuery} (hrelation : query.relation = .contracts)
    (h : WellFormed (.findMany query)) : Succeeds (compileContractFindMany profile query) := by
  obtain ⟨hpredicate, -, hincludes, -, -⟩ := h
  rw [hrelation] at hpredicate hincludes
  refine succeeds_ite (fun hother => absurd hrelation hother) fun _ => ?_
  dsimp only
  refine succeeds_bind (succeeds_contractConditions profile hpredicate _) fun conditions => ?_
  refine succeeds_bind (succeeds_limitClause _) fun limit => succeeds_bind (succeeds_offsetClause _) fun offset => ?_
  refine succeeds_bind (succeeds_compileCanonicalPhysicalIncludes profile .contracts _ _ hincludes) fun included => ?_
  exact succeeds_bind (succeeds_contractJson _) fun json => succeeds_pure _

theorem succeeds_relationFindMany {query : NormalizedFindManyQuery} (hrelation : query.relation ≠ .contracts)
    (h : WellFormed (.findMany query)) : Succeeds (compilePqsRelationFindMany profile query) := by
  obtain ⟨hpredicate, hselect, hincludes, horder, -⟩ := h
  refine succeeds_lift_bind (rootSource_ok profile _) fun source _ => ?_
  refine succeeds_lift_bind (selectedFields_ok profile hrelation hselect) fun fields _ => ?_
  refine succeeds_bind (succeeds_relationConditions profile _ hpredicate) fun conditions => ?_
  refine succeeds_lift_bind (relationOrderBy_ok profile hrelation horder) fun orderBy _ => ?_
  refine succeeds_bind (succeeds_limitClauses _) fun limit => succeeds_bind (succeeds_offsetClauses _) fun offset => ?_
  refine succeeds_bind (succeeds_compileCanonicalPhysicalIncludes profile _ _ _ hincludes) fun included => ?_
  exact succeeds_bind (succeeds_jsonSelections profile hrelation (json_subset hselect)) fun json => succeeds_pure _

theorem succeeds_findMany {query : NormalizedFindManyQuery} (h : WellFormed (.findMany query)) :
    Succeeds (compileQuery profile (.findMany query)) :=
  succeeds_ite (fun hrelation => succeeds_contractFindMany profile hrelation h) fun hrelation =>
    succeeds_relationFindMany profile hrelation h

/-- A query for one row is well formed as the query for rows that it is compiled as. -/
theorem wellFormed_uniqueAsFindMany {query : NormalizedFindUniqueQuery} (h : WellFormed (.findUnique query)) :
    WellFormed (.findMany (normalizedUniqueAsFindMany query)) := by
  obtain ⟨hpredicate, hselect, hincludes⟩ := h
  refine ⟨fun condition hcondition => Option.some.inj hcondition ▸ hpredicate, hselect, hincludes, ?_, nofun⟩
  show OrderFits query.relation (if query.relation = .contracts then _ else _)
  split
  · next hrelation =>
      rw [hrelation]
      exact List.forall_mem_singleton.mpr ⟨"contractId", by decide, rfl⟩
  · exact fun _ horder => absurd horder List.not_mem_nil

theorem succeeds_contractCount {query : NormalizedCountQuery} (hrelation : query.relation = .contracts)
    (h : WellFormed (.count query)) : Succeeds (compileContractCount profile query) := by
  obtain ⟨hpredicate, -⟩ := h
  rw [hrelation] at hpredicate
  exact succeeds_ite (fun hother => absurd hrelation hother) fun _ =>
    succeeds_bind (succeeds_contractConditions profile hpredicate _) fun conditions => succeeds_pure _

theorem succeeds_relationCount {query : NormalizedCountQuery} (h : WellFormed (.count query)) :
    Succeeds (compilePqsRelationCount profile query) :=
  succeeds_lift_bind (rootSource_ok profile _) fun source _ =>
    succeeds_bind (succeeds_relationConditions profile _ h.1) fun conditions => succeeds_pure _

/-! ## Aggregates -/

theorem mem_requestedAggregates {aggregates : NormalizedAggregateSelection} {p : String → Prop} :
    (∀ entry ∈ requestedAggregates aggregates, p entry.2) ↔ ∀ field ∈ aggregates.min ++ aggregates.max ++ aggregates.sum, p field := by
  simp only [requestedAggregates, List.mem_append, List.mem_map, or_imp, forall_and, forall_exists_index, and_imp,
    forall_apply_eq_imp_iff₂]

theorem relationAggregates_ok_iff {relation : QueryRelation} (hrelation : relation ≠ .contracts) (tableAlias : SqlAlias)
    (aggregates : NormalizedAggregateSelection) :
    (∃ selected, relationAggregates profile relation tableAlias aggregates = .ok selected) ↔
      ∀ field ∈ aggregates.min ++ aggregates.max ++ aggregates.sum, field ∈ (queryRelationMetadata relation).numericFields := by
  rw [← mem_requestedAggregates (p := fun field => field ∈ (queryRelationMetadata relation).numericFields)]
  constructor
  · rintro ⟨selected, h⟩ entry hentry
    obtain ⟨requested, hrequested, -⟩ := bind_eq_ok.mp h
    obtain ⟨result, -, hresult⟩ := exists_right_of_mem (mapM_eq_ok.mp hrequested) hentry
    by_contra hnumeric
    rw [if_pos hnumeric] at hresult
    cases hresult
  · intro h
    refine ok_bind_pure (mapM_succeeds fun entry hentry => ?_)
    rw [if_neg (not_not.mpr (h entry hentry))]
    exact ok_bind_pure (physicalField_ok profile hrelation ((metadata_subset relation).2.2.2.1 _ (h entry hentry)) tableAlias)

/-- What was asked for makes the selection of an aggregate query not empty. -/
theorem selected_not_empty {fields : List String} {aggregates : NormalizedAggregateSelection} (h : AggregatesFit fields aggregates)
    {requested : List Sql} (hlength : requested.length = (requestedAggregates aggregates).length) :
    (countSelection aggregates ++ requested).isEmpty = false := by
  rw [List.isEmpty_eq_false_iff, ne_eq, List.append_eq_nil_iff]
  rintro ⟨hcount, rfl⟩
  rcases h.asked with hasked | hasked
  · rw [countSelection, if_pos hasked] at hcount
    cases hcount
  · have hnone : requestedAggregates aggregates = [] := List.length_eq_zero_iff.mp hlength.symm
    simp only [requestedAggregates, List.append_eq_nil_iff, List.map_eq_nil_iff] at hnone
    exact hasked (by simp [hnone])

theorem relationAggregates_not_empty {relation : QueryRelation} {tableAlias : SqlAlias} {fields : List String}
    {aggregates : NormalizedAggregateSelection} (hfits : AggregatesFit fields aggregates) {selected : List Sql}
    (h : relationAggregates profile relation tableAlias aggregates = .ok selected) : selected.isEmpty = false := by
  obtain ⟨requested, hrequested, h⟩ := bind_eq_ok.mp h
  obtain rfl := Except.ok.inj h
  exact selected_not_empty hfits (mapM_eq_ok.mp hrequested).length_eq.symm

theorem contractAggregateField_isSome (field : String) :
    (contractAggregateField field).isSome = true ↔ field ∈ (queryRelationMetadata .contracts).numericFields := by
  unfold contractAggregateField
  split
  · decide
  · decide
  · next hcreated harchived => simpa [queryRelationMetadata] using ⟨hcreated, harchived⟩

/-- The aggregates that a query asks for are of numeric fields. -/
def NumericAggregates (query : NormalizedAggregateQuery) : Prop :=
  ∀ field ∈ query.aggregates.min ++ query.aggregates.max ++ query.aggregates.sum,
    field ∈ (queryRelationMetadata query.relation).numericFields

section Aggregate

variable {query : NormalizedAggregateQuery}

theorem succeeds_relationAggregate (hrelation : query.relation ≠ .contracts) (h : WellFormed (.aggregate query))
    (hnumeric : NumericAggregates query) : Succeeds (compilePqsRelationAggregate profile query) := by
  refine succeeds_lift_bind (rootSource_ok profile _) fun source _ => ?_
  refine succeeds_lift_bind ((relationAggregates_ok_iff profile hrelation _ _).mpr hnumeric) fun selected hselected => ?_
  rw [relationAggregates_not_empty profile h.2 hselected]
  exact succeeds_bind (succeeds_relationConditions profile _ h.1) fun conditions => succeeds_pure _

theorem numeric_of_relationAggregate (hrelation : query.relation ≠ .contracts) {values : List SqlValue}
    {result : Sql × List SqlValue} (h : compilePqsRelationAggregate profile query values = .ok result) :
    NumericAggregates query := by
  obtain ⟨source, -, h⟩ := of_bind_ok h
  obtain ⟨selected, hselected, -⟩ := of_bind_ok h
  apply (relationAggregates_ok_iff profile hrelation .none _).mp
  obtain ⟨aggregates, haggregates, -⟩ := bind_eq_ok.mp hselected
  exact ⟨aggregates, haggregates⟩

theorem succeeds_contractAggregate (hrelation : query.relation = .contracts) (h : WellFormed (.aggregate query))
    (hnumeric : NumericAggregates query) : Succeeds (compileContractAggregate profile query) := by
  obtain ⟨hpredicate, hfits⟩ := h
  rw [NumericAggregates, hrelation] at hnumeric
  rw [hrelation] at hpredicate
  refine succeeds_ite (fun hother => absurd hrelation hother) fun _ => ?_
  refine succeeds_lift_bind (mapM_succeeds fun entry hentry => ?_) fun requested hrequested => ?_
  · obtain ⟨expression, hexpression⟩ := Option.isSome_iff_exists.mp
      ((contractAggregateField_isSome entry.2).mpr (mem_requestedAggregates.mpr hnumeric entry hentry))
    rw [hexpression]
    exact ⟨_, rfl⟩
  · dsimp only
    rw [selected_not_empty hfits (mapM_eq_ok.mp hrequested).length_eq.symm]
    exact succeeds_bind (succeeds_contractConditions profile hpredicate _) fun conditions => succeeds_pure _

theorem numeric_of_contractAggregate (hrelation : query.relation = .contracts) {values : List SqlValue}
    {result : Sql × List SqlValue} (h : compileContractAggregate profile query values = .ok result) :
    NumericAggregates query := by
  rw [compileContractAggregate, if_neg (not_not.mpr hrelation)] at h
  obtain ⟨first, hfirst, -⟩ := of_bind_ok h
  obtain ⟨requested, hrequested, -⟩ := bind_eq_ok.mp hfirst
  rw [NumericAggregates, hrelation]
  refine mem_requestedAggregates.mp fun entry hentry => (contractAggregateField_isSome entry.2).mp ?_
  obtain ⟨selection, -, hselection⟩ := exists_right_of_mem (mapM_eq_ok.mp hrequested) hentry
  cases hfield : contractAggregateField entry.2 with
  | none =>
      rw [hfield] at hselection
      cases hselection
  | some expression => rfl

end Aggregate

/-! ## Groups -/

def isRelatedBucket : NormalizedGroupKey → Bool
  | .relatedBucket _ _ _ => true
  | _ => false

/-- The fields that contracts are grouped by are the witnesses and the fields that contracts are ordered by. -/
theorem contractRowField_isSome {field : String} (h : field ∈ (queryRelationMetadata .contracts).groupFields)
    (hwitnesses : field ≠ "witnesses") : (contractRowField profile field).isSome = true := by
  simp only [queryRelationMetadata, List.mem_cons, List.not_mem_nil, or_false] at h
  rcases h with rfl | rfl | rfl | rfl | rfl | rfl
  · rfl
  · rfl
  · rfl
  · rfl
  · rfl
  · exact absurd rfl hwitnesses

theorem succeeds_contractGroupKey {key : NormalizedGroupKey} (h : GroupKeyFits .contracts key) (hrelated : isRelatedBucket key = false) :
    Succeeds (compileContractGroupKey profile key) := by
  cases key with
  | field path =>
      obtain ⟨field, hfield, rfl⟩ := h
      by_cases hwitnesses : field = "witnesses"
      · subst hwitnesses
        exact succeeds_pure _
      · have hother : isWitnessesKey (.field [field]) = false := by
          simpa [isWitnessesKey] using hwitnesses
        obtain ⟨expression, hexpression⟩ := Option.isSome_iff_exists.mp (contractRowField_isSome profile hfield hwitnesses)
        rw [compileContractGroupKey, hother]
        simp only [Bool.false_eq_true, if_false, List.head?_cons, Option.getD_some, hexpression]
        exact succeeds_pure _
  | json field name path as =>
      have hpayload : field = "payload" := List.mem_singleton.mp h.1
      rw [compileContractGroupKey, if_neg (not_not.mpr hpayload)]
      exact succeeds_bind (succeeds_jsonText _ _) fun _ => succeeds_pure _
  | bucket field bucket => exact absurd h List.not_mem_nil
  | relatedBucket edge field bucket => cases hrelated

theorem succeeds_groupKeys {keys : List NormalizedGroupKey} (h : ∀ key ∈ keys, Succeeds (compileContractGroupKey profile key)) :
    Succeeds (compileGroupKeys (compileContractGroupKey profile) keys) := by
  induction keys with
  | nil => exact succeeds_pure _
  | cons key rest ih =>
      rw [List.forall_mem_cons] at h
      exact succeeds_bind h.1 fun _ => succeeds_bind (ih h.2) fun _ => succeeds_pure _

/-- Contracts cannot be grouped by a bucket of a row that they lead to. -/
theorem not_relatedBucket_of_groupKeys {keys : List NormalizedGroupKey} {values : List SqlValue}
    {result : List CompiledGroupKey × List SqlValue} (h : compileGroupKeys (compileContractGroupKey profile) keys values = .ok result) :
    ∀ key ∈ keys, isRelatedBucket key = false := by
  induction keys generalizing values result with
  | nil => exact fun _ hkey => absurd hkey List.not_mem_nil
  | cons key rest ih =>
      obtain ⟨first, hfirst, h⟩ := of_bind_ok h
      obtain ⟨others, hothers, -⟩ := of_bind_ok h
      refine List.forall_mem_cons.mpr ⟨?_, ih hothers⟩
      cases key with
      | field path => rfl
      | json field name path as => rfl
      | bucket field bucket => rfl
      | relatedBucket edge field bucket => cases hfirst

theorem succeeds_relationGroupKey {relation : QueryRelation} (hrelation : relation ≠ .contracts) (root : Sql)
    {key : NormalizedGroupKey} (h : GroupKeyFits relation key) : Succeeds (compileRelationGroupKey profile relation root key) := by
  obtain ⟨hjson, -, hgroup, -, hbucket⟩ := metadata_subset relation
  cases key with
  | field path =>
      obtain ⟨field, hfield, rfl⟩ := h
      refine succeeds_lift_bind (pqsColumn_ok hrelation (hgroup field hfield)) fun column _ => ?_
      exact succeeds_ite (fun _ => succeeds_pure _) fun _ =>
        succeeds_lift_bind (physicalField_ok profile hrelation (hgroup field hfield) _) fun expression _ => succeeds_pure _
  | json field name path as =>
      exact succeeds_lift_bind (physicalField_ok profile hrelation (hjson field h.1) _) fun base _ =>
        succeeds_bind (succeeds_jsonText _ _) fun _ => succeeds_pure _
  | bucket field bucket =>
      exact succeeds_lift_bind (physicalField_ok profile hrelation (hbucket field h) _) fun expression _ => succeeds_pure _
  | relatedBucket edge field bucket =>
      obtain ⟨hsource, hone, hfield⟩ := h
      have htarget : edge.target ≠ .contracts := by
        intro hcontracts
        rw [hcontracts] at hfield
        exact absurd hfield List.not_mem_nil
      rw [compileRelationGroupKey, if_neg (not_or.mpr ⟨not_not.mpr hsource, not_not.mpr hone⟩)]
      exact succeeds_lift_bind (physicalField_ok profile htarget ((metadata_subset edge.target).2.2.2.2 field hfield) _)
        fun expression _ => succeeds_pure _

theorem succeeds_relationGroupKeys {relation : QueryRelation} (hrelation : relation ≠ .contracts) (root : Sql)
    {keys : List NormalizedGroupKey} (h : ∀ key ∈ keys, GroupKeyFits relation key) :
    Succeeds (compileRelationGroupKeys profile relation root keys) := by
  induction keys with
  | nil => exact succeeds_pure _
  | cons key rest ih =>
      rw [List.forall_mem_cons] at h
      exact succeeds_bind (succeeds_relationGroupKey profile hrelation root h.1) fun _ =>
        succeeds_bind (ih h.2) fun _ => succeeds_pure _

section GroupBy

variable {query : NormalizedGroupByQuery}

theorem something_grouped (h : WellFormed (.groupBy query)) : nothingGrouped query = false := by
  obtain ⟨-, hkeys, -, hfits⟩ := h
  have hsome : (countSelection query.aggregates ++ (requestedAggregates query.aggregates).map fun _ => Sql.empty).isEmpty = false :=
    selected_not_empty hfits (List.length_map _)
  rw [nothingGrouped, Bool.or_eq_false_iff]
  refine ⟨List.isEmpty_eq_false_iff.mpr hkeys, ?_⟩
  cases hcount : query.aggregates.count with
  | true => rfl
  | false => simpa [countSelection, hcount] using hsome

theorem succeeds_contractGroupBy (hrelation : query.relation = .contracts) (h : WellFormed (.groupBy query))
    (hrelated : ∀ key ∈ query.by_, isRelatedBucket key = false) : Succeeds (compileContractGroupBy profile query) := by
  have hgrouped := something_grouped h
  obtain ⟨hpredicate, -, hkeys, -⟩ := h
  rw [hrelation] at hpredicate hkeys
  rw [compileContractGroupBy, if_neg (not_not.mpr hrelation), hgrouped]
  refine succeeds_bind (succeeds_contractConditions profile hpredicate _) fun conditions => ?_
  refine succeeds_bind (succeeds_groupKeys profile fun key hkey => ?_) fun keys => succeeds_pure _
  exact succeeds_contractGroupKey profile (hkeys key hkey) (hrelated key hkey)

theorem not_relatedBucket_of_contractGroupBy (hrelation : query.relation = .contracts) {values : List SqlValue}
    {result : Sql × List SqlValue} (h : compileContractGroupBy profile query values = .ok result) :
    ∀ key ∈ query.by_, isRelatedBucket key = false := by
  rw [compileContractGroupBy, if_neg (not_not.mpr hrelation)] at h
  cases hgrouped : nothingGrouped query with
  | true =>
      rw [hgrouped] at h
      cases h
  | false =>
      rw [hgrouped] at h
      obtain ⟨conditions, -, h⟩ := of_bind_ok h
      obtain ⟨keys, hkeys, -⟩ := of_bind_ok h
      exact not_relatedBucket_of_groupKeys profile hkeys

theorem succeeds_relationGroupBy (hrelation : query.relation ≠ .contracts) (h : WellFormed (.groupBy query)) :
    Succeeds (compilePqsRelationGroupBy profile query) := by
  have hgrouped := something_grouped h
  obtain ⟨hpredicate, -, hkeys, hfits⟩ := h
  rw [compilePqsRelationGroupBy, hgrouped]
  refine succeeds_lift_bind (rootSource_ok profile _) fun source _ => ?_
  refine succeeds_bind (succeeds_relationConditions profile _ hpredicate) fun conditions => ?_
  refine succeeds_bind (succeeds_relationGroupKeys profile hrelation _ hkeys) fun keys => ?_
  exact succeeds_lift_bind ((relationAggregates_ok_iff profile hrelation _ _).mpr hfits.fields) fun aggregates _ => succeeds_pure _

end GroupBy

/-! ## Queries of any kind -/

/-- What the compilers ask of a query beyond what the normalizer has checked. -/
def Supported : NormalizedQuery → Prop
  | .findMany _ | .findUnique _ | .count _ => True
  | .aggregate query => NumericAggregates query
  | .groupBy query => query.relation = .contracts → ∀ key ∈ query.by_, isRelatedBucket key = false

theorem compiled_iff {compile : Compile Sql} :
    (∃ statement, compiled compile = .ok statement) ↔ ∃ result, compile [] = .ok result := by
  unfold compiled
  cases compile [] <;> simp [Except.map]

theorem succeeds_compileQuery {query : NormalizedQuery} (h : WellFormed query) (hsupported : Supported query) :
    Succeeds (compileQuery profile query) := by
  cases query with
  | findMany query => exact succeeds_findMany profile h
  | findUnique query => exact succeeds_findMany profile (wellFormed_uniqueAsFindMany h)
  | count query =>
      exact succeeds_ite (fun hrelation => succeeds_contractCount profile hrelation h) fun _ => succeeds_relationCount profile h
  | aggregate query =>
      exact succeeds_ite (fun hrelation => succeeds_contractAggregate profile hrelation h hsupported) fun hrelation =>
        succeeds_relationAggregate profile hrelation h hsupported
  | groupBy query =>
      exact succeeds_ite (fun hrelation => succeeds_contractGroupBy profile hrelation h (hsupported hrelation)) fun hrelation =>
        succeeds_relationGroupBy profile hrelation h

theorem supported_of_compileQuery {query : NormalizedQuery} {result : Sql × List SqlValue}
    (h : compileQuery profile query [] = .ok result) : Supported query := by
  cases query with
  | findMany query => exact trivial
  | findUnique query => exact trivial
  | count query => exact trivial
  | aggregate query =>
      by_cases hrelation : query.relation = .contracts
      · rw [compileQuery, NormalizedQuery.relation] at h
        exact numeric_of_contractAggregate profile hrelation (by simpa [hrelation] using h)
      · exact numeric_of_relationAggregate profile hrelation (by simpa [compileQuery, NormalizedQuery.relation, hrelation] using h)
  | groupBy query =>
      intro hrelation
      exact not_relatedBucket_of_contractGroupBy profile hrelation (by simpa [compileQuery, NormalizedQuery.relation, hrelation] using h)

/-- A query that the normalizer has accepted becomes a statement unless it asks for an aggregate of a field that is not numeric,
or for groups of contracts by a bucket of another relation. -/
theorem accepted_compiles_iff {kind : QueryKind} {relation : QueryRelation} {args : QueryArgument} {query : NormalizedQuery}
    (h : normalizeQuery kind relation args = .ok query) :
    (∃ statement, compiled (compileQuery profile query) = .ok statement) ↔ Supported query := by
  rw [compiled_iff]
  exact ⟨fun ⟨_, hresult⟩ => supported_of_compileQuery profile hresult, fun hsupported =>
    succeeds_compileQuery profile (wellFormed_of_normalized h) hsupported []⟩

end Profile

/-- `{ by: [{ createdTransaction: { effectiveAt: { bucket: "week" } } }], aggregate: { count: true } }`. -/
def byWeekArguments : QueryArgument :=
  .object true
    [("by", .array [.object true
        [("createdTransaction", .object true [("effectiveAt", .object true [("bucket", .text "week")])])]]),
      ("aggregate", .object true [("count", .bool true)])]

def contractsByWeek : NormalizedGroupByQuery where
  relation := .contracts
  predicate := none
  by_ := [.relatedBucket .contractsCreatedTransaction "effectiveAt" .week]
  aggregates := ⟨true, [], [], []⟩

theorem accepted_compiles_iff_contractsByWeek :
    ¬ ∃ statement, compiled (compileQuery publicProfile (.groupBy contractsByWeek)) = .ok statement := by
  have haccepted : normalizeQuery .groupBy .contracts byWeekArguments = .ok (.groupBy contractsByWeek) := by rfl
  rw [accepted_compiles_iff publicProfile haccepted]
  intro hsupported
  exact absurd (hsupported rfl _ List.mem_cons_self) (by decide)

end CantonSdk.Query.Pqs
