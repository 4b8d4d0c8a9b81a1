import CantonSdk.Base.Decimal
import CantonSdk.Query.Pqs.Placeholders

/-!
# The parameters of a statement

The placeholders of the text that a query compiles to are those of all its values, unless one of its conditions binds a JSON
path and then leaves it out. They are the parameters that PostgreSQL reads in the text.
-/

set_option linter.all false

namespace CantonSdk.Query.Pqs

open CantonSdk.Base CantonSdk.Query.Canonical

section Compilers

variable (profile : PqsSchemaProfileV1)

/-! ## Queries -/

theorem pushes_contractFilter (predicate : Option QueryPredicate) :
    Pushes (fun _ => False) anyHas (spendsFilter .contracts predicate) (contractFilter profile predicate) := by
  cases predicate with
  | none => exact pushes_congr (pushes_pure fun number => by simp) (by simp [spendsFilter])
  | some predicate =>
      exact pushes_congr (pushes_bind (pushes_compileCanonicalPredicate profile plain_contractRow .contracts predicate)
        fun condition => pushes_pure fun number => by simp) (by simp [spendsFilter])

theorem pushes_witnessCondition (parties : Option (List String)) :
    Pushes (fun _ => False) anyHas True (witnessCondition parties) := by
  cases parties with
  | none => exact pushes_pure fun number => by simp
  | some parties =>
      exact pushes_congr (pushes_bind (pushes_add _) fun placeholder => pushes_pure fun number => by simp) and_self_iff

theorem pushes_contractConditions (predicate : Option QueryPredicate) (parties : Option (List String)) :
    Pushes (fun _ => False) anyHas (spendsFilter .contracts predicate) (contractConditions profile predicate parties) := by
  refine pushes_congr (pushes_bind (pushes_contractFilter profile predicate) fun filter => ?_) (iff_of_eq (and_true _))
  exact pushes_congr (pushes_bind (pushes_witnessCondition parties) fun witnesses => pushes_pure fun number => by simp)
    and_self_iff

@[simp] theorem anyHas_whereClause {conditions : List Sql} {number : Nat} :
    anyHas (whereClause conditions) number ↔ anyHas conditions number := by
  cases conditions <;> simp [whereClause]

theorem pushes_compileContractJson (json : List NormalizedJsonSelection) :
    Pushes (fun _ => False) anyHas True (compileContractJson json) := by
  induction json with
  | nil => exact pushes_pure fun number => by simp
  | cons projection rest ih =>
      refine pushes_congr (pushes_bind (pushes_jsonText (fun number => by simp) _) fun text => pushes_bind ih fun others =>
        pushes_pure fun number => ?_) (by simp)
      simp

theorem pushes_countClause (keyword : SqlCode) (hkeyword : endsApart keyword.chars = true) (count : Option Nat) :
    Pushes (fun _ => False) Sql.Has True (countClause keyword hkeyword count) := by
  cases count with
  | none => exact pushes_pure fun number => by simp
  | some count =>
      exact pushes_congr (pushes_bind (pushes_add _) fun placeholder => pushes_pure fun number => by simp) and_self_iff

theorem bare_contractRowField (name : String) : ∀ field ∈ contractRowField profile name, Bare field :=
  bare_contractOrderField profile plain_contractRow (fun number => by simp) name

@[simp] theorem has_contractFrom {number : Nat} : ¬ (contractFrom profile).Has number := by
  simp [contractFrom]

theorem has_contractRowPackageId {number : Nat} : ¬ (contractPackageIdExpression profile .contractRow).Has number :=
  has_contractPackageId plain_contractRow

theorem pushes_compileContractFindMany (query : NormalizedFindManyQuery) :
    Pushes (fun _ => False) Sql.Has (spendsFilter .contracts query.predicate ∧ spendsIncludes query.includes)
      (compileContractFindMany profile query) := by
  unfold compileContractFindMany
  refine pushes_ite (fun _ _ => trivial) fun _ => ?_
  dsimp only
  refine pushes_bind (pushes_contractConditions profile _ _) fun conditions => ?_
  refine pushes_congr (pushes_bind (pushes_countClause _ _ _) fun limit => ?_) (iff_of_eq (true_and _))
  refine pushes_congr (pushes_bind (pushes_countClause _ _ _) fun offset => ?_) (iff_of_eq (true_and _))
  refine pushes_congr (pushes_bind (pushes_compileCanonicalPhysicalIncludes profile .contracts plain_contractRow _)
    fun included => ?_)
    (iff_of_eq (and_true _))
  refine pushes_congr (pushes_bind (pushes_compileContractJson _) fun json => pushes_pure fun number => ?_) and_self_iff
  have horder : ¬ anyHas (compileCanonicalOrderBy query.orderBy (contractRowField profile)).toList number :=
    bare_orderBy (bare_contractRowField profile) number
  have hpackage : ¬ (contractPackageIdExpression profile .contractRow).Has number := has_contractRowPackageId profile
  cases horderBy : compileCanonicalOrderBy query.orderBy (contractRowField profile) with
  | none =>
      simp [compileCanonicalContractOrderBy, horderBy, hpackage, anyHas_selections]
      tauto
  | some orderBy =>
      rw [horderBy] at horder
      simp at horder
      simp [compileCanonicalContractOrderBy, horderBy, hpackage, horder, anyHas_selections]
      tauto

theorem pushes_compileContractCount (query : NormalizedCountQuery) :
    Pushes (fun _ => False) Sql.Has (spendsFilter .contracts query.predicate) (compileContractCount profile query) := by
  unfold compileContractCount
  refine pushes_ite (fun _ _ => trivial) fun _ => ?_
  refine pushes_congr (pushes_bind (pushes_contractConditions profile _ _) fun conditions => pushes_pure fun number => ?_)
    (iff_of_eq (and_true _))
  simp

@[simp] theorem has_aggregated {operation : AggregateOperation} {expression : Sql} {field : String} {number : Nat} :
    (aggregated operation expression field).Has number ↔ expression.Has number := by
  cases operation <;> simp [aggregated]

theorem bare_countSelection (aggregates : NormalizedAggregateSelection) : AllBare (countSelection aggregates) := by
  intro number
  unfold countSelection
  split <;> simp

theorem pushes_compileContractAggregate (query : NormalizedAggregateQuery) :
    Pushes (fun _ => False) Sql.Has (spendsFilter .contracts query.predicate) (compileContractAggregate profile query) := by
  unfold compileContractAggregate
  refine pushes_ite (fun _ _ => trivial) fun _ => pushes_lift_bind fun requested hrequested => ?_
  refine pushes_ite (fun _ _ => trivial) fun _ => ?_
  refine pushes_congr (pushes_bind (pushes_contractConditions profile _ _) fun conditions => pushes_pure fun number => ?_)
    (iff_of_eq (and_true _))
  have hbare : ¬ anyHas requested number := by
    rintro ⟨fragment, hfragment, hhas⟩
    obtain ⟨entry, -, hentry⟩ := exists_left_of_mem (mapM_eq_ok.mp hrequested) hfragment
    unfold contractAggregateField at hentry
    split at hentry
    · cases hentry
    · rename_i hfield
      obtain rfl := Except.ok.inj hentry
      split at hfield <;> cases hfield <;> simp at hhas
  simp [hbare, bare_countSelection query.aggregates number]

/-! ## Groups -/

/-- The placeholders of a group key. -/
def CompiledGroupKey.Has (key : CompiledGroupKey) (number : Nat) : Prop :=
  key.selection.Has number ∨ key.expression.Has number

/-- The placeholders of group keys. -/
def keysHave (keys : List CompiledGroupKey) (number : Nat) : Prop := ∃ key ∈ keys, key.Has number

theorem keysHave_iff {keys : List CompiledGroupKey} {number : Nat} :
    keysHave keys number ↔ anyHas (keys.map (·.selection)) number ∨ anyHas (keys.map (·.expression)) number := by
  simp [keysHave, CompiledGroupKey.Has, anyHas, and_or_left, exists_or]

@[simp] theorem has_jsonGroupScalar {text : Sql} {as : JsonScalarType} {number : Nat} :
    (jsonGroupScalar text as).Has number ↔ text.Has number := by
  cases as <;> simp [jsonGroupScalar]

theorem pushes_compileContractGroupKey (key : NormalizedGroupKey) :
    Pushes (fun _ => False) CompiledGroupKey.Has True (compileContractGroupKey profile key) := by
  unfold compileContractGroupKey
  cases key with
  | field path =>
      refine pushes_ite (fun _ => pushes_pure fun number => by simp [CompiledGroupKey.Has]) fun _ => ?_
      split
      · exact pushes_throw _
      · rename_i expression hfield
        have hbare := bare_contractRowField profile _ expression hfield
        exact pushes_pure fun number => by
          have := hbare number
          simp [CompiledGroupKey.Has, this]
  | json field name path as =>
      refine pushes_ite (fun _ _ => trivial) fun _ => ?_
      refine pushes_congr (pushes_bind (pushes_jsonText (fun number => by simp) _) fun base =>
        pushes_pure fun number => ?_) and_self_iff
      simp [CompiledGroupKey.Has]
  | bucket field bucket => exact pushes_throw _
  | relatedBucket edge field bucket => exact pushes_throw _

theorem pushes_compileGroupKeys {compileKey : NormalizedGroupKey → Compile CompiledGroupKey}
    (h : ∀ key, Pushes (fun _ => False) CompiledGroupKey.Has True (compileKey key)) (keys : List NormalizedGroupKey) :
    Pushes (fun _ => False) keysHave True (compileGroupKeys compileKey keys) := by
  induction keys with
  | nil => exact pushes_pure fun number => by simp [keysHave]
  | cons key rest ih =>
      refine pushes_congr (pushes_bind (h key) fun first => pushes_bind ih fun others => pushes_pure fun number => ?_)
        (by simp)
      simp [keysHave]

@[simp] theorem has_groupByClause {keys : List CompiledGroupKey} {number : Nat} :
    (groupByClause keys).Has number ↔ anyHas (keys.map (·.expression)) number := by
  simp [groupByClause]

theorem pushes_compileContractGroupBy (query : NormalizedGroupByQuery) :
    Pushes (fun _ => False) Sql.Has (spendsFilter .contracts query.predicate) (compileContractGroupBy profile query) := by
  unfold compileContractGroupBy
  refine pushes_ite (fun _ _ => trivial) fun _ => pushes_ite (fun _ _ => trivial) fun _ => ?_
  refine pushes_congr (pushes_bind (pushes_contractConditions profile _ _) fun conditions => ?_) (iff_of_eq (and_true _))
  refine pushes_congr (pushes_bind (pushes_compileGroupKeys (pushes_compileContractGroupKey profile) _) fun keys =>
    pushes_pure fun number => ?_) and_self_iff
  have hrequested : ¬ anyHas ((requestedAggregates query.aggregates).map fun entry =>
      aggregated entry.1 ((contractRowField profile entry.2).getD (.code (code "undefined"))) entry.2) number := by
    rintro ⟨fragment, hfragment, hhas⟩
    obtain ⟨entry, -, rfl⟩ := List.mem_map.mp hfragment
    rw [has_aggregated] at hhas
    cases hfield : contractRowField profile entry.2 with
    | none => simp [hfield] at hhas
    | some field =>
        rw [hfield] at hhas
        exact bare_contractRowField profile entry.2 field hfield number hhas
  have hunnested : ¬ anyHas (if query.by_.any isWitnessesKey then
      [Sql.code (code "cross join lateral unnest(contract_row.witnesses) as witness(value)")] else []) number := by
    split <;> simp
  have hcount := bare_countSelection query.aggregates number
  simp only [has_join, anyHas_cons, has_template, List.mem_cons, List.not_mem_nil, or_false, exists_eq_or_imp,
    exists_eq_left,
    anyHas_append, has_contractFrom, hrequested, hunnested, hcount, anyHas_whereClause, has_groupByClause, anyHas_nil,
    keysHave_iff, false_or]
  tauto

/-! ## The other relations -/

theorem bare_rootSource {relation : QueryRelation} {source : RootSource}
    (hsource : logicalTypeRootSource profile relation = .ok source) :
    AllBare source.withClause.toList ∧ Bare source.relation := by
  unfold logicalTypeRootSource at hsource
  split at hsource
  · obtain rfl := Except.ok.inj hsource
    exact ⟨fun number => by simp, fun number => has_relation⟩
  · obtain ⟨publicKey, hkey, heq⟩ := bind_eq_ok.mp hsource
    obtain rfl := Except.ok.inj heq
    have hbare (number : Nat) : ¬ publicKey.Has number :=
      has_physicalField (show (SqlAlias.named _).Plain from fun number => has_code) hkey
    exact ⟨fun number => by simp [hbare], fun number => has_code⟩

theorem has_statement {source : RootSource} (hsource : AllBare source.withClause.toList) {clauses : List Sql}
    {number : Nat} :
    (statement source clauses).Has number ↔ anyHas clauses number := by
  have := hsource number
  simp [statement, this]

theorem has_fromSource {source : RootSource} {number : Nat} :
    (fromSource source).Has number ↔ source.relation.Has number := by
  simp [fromSource]

theorem bare_selectedFields {relation : QueryRelation} {select : Option NormalizedSelection} {fields : List Sql}
    (hfields : selectedCanonicalFields profile relation select = .ok fields) : AllBare fields := by
  rintro number ⟨fragment, hfragment, hhas⟩
  obtain ⟨columns, -, hrest⟩ := bind_eq_ok.mp hfields
  split at hrest
  · cases hrest
  · obtain ⟨name, -, hname⟩ := exists_left_of_mem (mapM_eq_ok.mp hrest) hfragment
    obtain ⟨expression, hexpression, heq⟩ := bind_eq_ok.mp hname
    obtain rfl := Except.ok.inj heq
    simp [has_physicalField plain_none hexpression] at hhas

theorem pushes_compileCanonicalJsonSelections (relation : QueryRelation) (json : List NormalizedJsonSelection) :
    Pushes (fun _ => False) anyHas True (compileCanonicalJsonSelections profile relation json) := by
  induction json with
  | nil => exact pushes_pure fun number => by simp
  | cons projection rest ih =>
      refine pushes_ite (fun _ _ => trivial) fun _ => pushes_lift_bind fun base hbase => ?_
      have hbare (number : Nat) : ¬ base.Has number := has_physicalField plain_none hbase
      refine pushes_congr (pushes_bind (pushes_jsonText hbare _) fun text => pushes_bind ih fun others =>
        pushes_pure fun number => ?_)
        (by simp)
      simp

theorem bare_relationOrderBy {relation : QueryRelation} {orderBy : List NormalizedOrder} {clauses : List Sql}
    (hclauses : compileRelationOrderBy profile relation orderBy = .ok clauses) : AllBare clauses := by
  intro number
  unfold compileRelationOrderBy at hclauses
  split at hclauses
  · obtain rfl := Except.ok.inj hclauses
    simp
  · obtain ⟨items, hitems, heq⟩ := bind_eq_ok.mp hclauses
    obtain rfl := Except.ok.inj heq
    have hbare : ¬ anyHas items number := by
      rintro ⟨item, hitem, hhas⟩
      obtain ⟨order, -, horder⟩ := exists_left_of_mem (mapM_eq_ok.mp hitems) hitem
      obtain ⟨expression, hexpression, heq⟩ := bind_eq_ok.mp horder
      obtain rfl := Except.ok.inj heq
      exact bare_directed (fun number => has_physicalField plain_none hexpression) _ number hhas
    simpa using hbare

theorem pushes_relationConditions (relation : QueryRelation) {tableAlias : SqlAlias} (h : tableAlias.Plain)
    (predicate : Option QueryPredicate) :
    Pushes (fun _ => False) anyHas (spendsFilter relation predicate)
      (relationConditions profile relation tableAlias predicate) := by
  cases predicate with
  | none => exact pushes_congr (pushes_pure fun number => by simp) (by simp [spendsFilter])
  | some predicate =>
      exact pushes_congr (pushes_bind (pushes_compileCanonicalPredicate profile h relation predicate) fun condition =>
        pushes_pure fun number => by simp) (by simp [spendsFilter])

/-- A clause in a list of its own. -/
theorem pushes_clauses {clause : Compile Sql} (h : Pushes (fun _ => False) Sql.Has True clause) :
    Pushes (fun _ => False) anyHas True (do return [← clause]) :=
  pushes_congr (pushes_bind h fun clause => pushes_pure fun number => by simp) and_self_iff

theorem pushes_limitClauses (take : Option Nat) : Pushes (fun _ => False) anyHas True (limitClauses take) :=
  pushes_ite (fun _ => pushes_pure fun number => by simp) fun _ => pushes_clauses (pushes_countClause _ _ _)

theorem pushes_offsetClauses (skip : Nat) : Pushes (fun _ => False) anyHas True (offsetClauses skip) :=
  pushes_ite (fun _ => pushes_pure fun number => by simp) fun _ => pushes_clauses (pushes_countClause _ _ _)

theorem pushes_compilePqsRelationFindMany (query : NormalizedFindManyQuery) :
    Pushes (fun _ => False) Sql.Has (spendsFilter query.relation query.predicate ∧ spendsIncludes query.includes)
      (compilePqsRelationFindMany profile query) := by
  unfold compilePqsRelationFindMany
  refine pushes_lift_bind fun source hsource => pushes_lift_bind fun fields hfields => ?_
  obtain ⟨hwith, hrelation⟩ := bare_rootSource profile hsource
  refine pushes_bind (pushes_relationConditions profile _ plain_none _) fun conditions =>
    pushes_lift_bind fun orderBy horderBy => ?_
  refine pushes_congr (pushes_bind (pushes_limitClauses _) fun limit => ?_) (iff_of_eq (true_and _))
  refine pushes_congr (pushes_bind (pushes_offsetClauses _) fun offset => ?_) (iff_of_eq (true_and _))
  refine pushes_congr (pushes_bind (pushes_compileCanonicalPhysicalIncludes profile query.relation
    (show (SqlAlias.named _).Plain from hrelation) _) fun included => ?_)
    (iff_of_eq (and_true _))
  refine pushes_congr (pushes_bind (pushes_compileCanonicalJsonSelections profile _ _) fun json =>
    pushes_pure fun number => ?_)
    and_self_iff
  have hfields := bare_selectedFields profile hfields number
  have horderBy := bare_relationOrderBy profile horderBy number
  have hrelation := hrelation number
  rw [has_statement hwith]
  simp only [anyHas_cons, anyHas_append, has_template, List.mem_cons, List.not_mem_nil, or_false, exists_eq_left, has_join,
    has_fromSource, anyHas_selections, hfields, horderBy, hrelation, false_or]
  tauto

theorem pushes_compilePqsRelationCount (query : NormalizedCountQuery) :
    Pushes (fun _ => False) Sql.Has (spendsFilter query.relation query.predicate)
      (compilePqsRelationCount profile query) := by
  unfold compilePqsRelationCount
  refine pushes_lift_bind fun source hsource => ?_
  obtain ⟨hwith, hrelation⟩ := bare_rootSource profile hsource
  refine pushes_congr (pushes_bind (pushes_relationConditions profile _ plain_none _) fun conditions =>
    pushes_pure fun number => ?_)
    (iff_of_eq (and_true _))
  have hrelation := hrelation number
  simp [has_statement hwith, has_fromSource, hrelation]

theorem bare_relationAggregates {relation : QueryRelation} {tableAlias : SqlAlias} (h : tableAlias.Plain)
    {aggregates : NormalizedAggregateSelection} {selected : List Sql}
    (hselected : relationAggregates profile relation tableAlias aggregates = .ok selected) : AllBare selected := by
  intro number
  obtain ⟨requested, hrequested, heq⟩ := bind_eq_ok.mp hselected
  obtain rfl := Except.ok.inj heq
  have hbare : ¬ anyHas requested number := by
    rintro ⟨fragment, hfragment, hhas⟩
    obtain ⟨entry, -, hentry⟩ := exists_left_of_mem (mapM_eq_ok.mp hrequested) hfragment
    split at hentry
    · cases hentry
    · obtain ⟨expression, hexpression, heq⟩ := bind_eq_ok.mp hentry
      obtain rfl := Except.ok.inj heq
      exact has_physicalField h hexpression (has_aggregated.mp hhas)
  simp [hbare, bare_countSelection aggregates number]

theorem pushes_compilePqsRelationAggregate (query : NormalizedAggregateQuery) :
    Pushes (fun _ => False) Sql.Has (spendsFilter query.relation query.predicate)
      (compilePqsRelationAggregate profile query) := by
  unfold compilePqsRelationAggregate
  refine pushes_lift_bind fun source hsource => pushes_lift_bind fun selected hselected =>
    pushes_ite (fun _ _ => trivial) fun _ => ?_
  obtain ⟨hwith, hrelation⟩ := bare_rootSource profile hsource
  refine pushes_congr (pushes_bind (pushes_relationConditions profile _ plain_none _) fun conditions =>
    pushes_pure fun number => ?_)
    (iff_of_eq (and_true _))
  have hselected := bare_relationAggregates profile plain_none hselected number
  have hrelation := hrelation number
  simp [has_statement hwith, has_fromSource, hselected, hrelation]

def RelationGroupKey.Has (key : RelationGroupKey) (number : Nat) : Prop := anyHas key.join number ∨ key.key.Has number

@[simp] theorem has_truncated {bucket : TimeBucket} {expression : Sql} {number : Nat} :
    (truncated bucket expression).Has number ↔ expression.Has number := by
  simp [truncated]

theorem pushes_compileRelationGroupKey (relation : QueryRelation) {root : Sql} (hroot : Bare root)
    (key : NormalizedGroupKey) :
    Pushes (fun _ => False) RelationGroupKey.Has True (compileRelationGroupKey profile relation root key) := by
  have hplain : (SqlAlias.named root).Plain := hroot
  unfold compileRelationGroupKey
  cases key with
  | field path =>
      refine pushes_lift_bind fun column _ => pushes_ite (fun _ => pushes_pure fun number => ?_) fun _ => ?_
      · have := hroot number
        simp [RelationGroupKey.Has, CompiledGroupKey.Has, this]
      · refine pushes_lift_bind fun expression hexpression => pushes_pure fun number => ?_
        simp [RelationGroupKey.Has, CompiledGroupKey.Has, has_physicalField hplain hexpression]
  | json field name path as =>
      refine pushes_lift_bind fun base hbase => ?_
      have hbare (number : Nat) : ¬ base.Has number := has_physicalField hplain hbase
      refine pushes_congr (pushes_bind (pushes_jsonText hbare _) fun text => pushes_pure fun number => ?_) and_self_iff
      simp [RelationGroupKey.Has, CompiledGroupKey.Has]
  | bucket field bucket =>
      refine pushes_lift_bind fun expression hexpression => pushes_pure fun number => ?_
      simp [RelationGroupKey.Has, CompiledGroupKey.Has, has_physicalField hplain hexpression]
  | relatedBucket edge field bucket =>
      refine pushes_ite (fun _ _ => trivial) fun _ => pushes_lift_bind fun expression hexpression =>
        pushes_pure fun number => ?_
      have := hroot number
      simp [RelationGroupKey.Has, CompiledGroupKey.Has, has_physicalField (plain_edgeAlias edge) hexpression, this]

/-- The placeholders of group keys with their joins. -/
def relationKeysHave (keys : List RelationGroupKey) (number : Nat) : Prop := ∃ key ∈ keys, key.Has number

theorem relationKeysHave_iff {keys : List RelationGroupKey} {number : Nat} :
    relationKeysHave keys number ↔ anyHas (keys.flatMap (·.join)) number ∨ keysHave (keys.map (·.key)) number := by
  induction keys with
  | nil => simp [relationKeysHave, keysHave]
  | cons key rest ih =>
      have hcons : relationKeysHave (key :: rest) number ↔ key.Has number ∨ relationKeysHave rest number := by
        simp [relationKeysHave]
      have hkeys : keysHave ((key :: rest).map (·.key)) number
          ↔ key.key.Has number ∨ keysHave (rest.map (·.key)) number := by
        simp [keysHave]
      rw [hcons, hkeys, ih, List.flatMap_cons, anyHas_append, RelationGroupKey.Has]
      tauto

theorem pushes_compileRelationGroupKeys (relation : QueryRelation) {root : Sql} (hroot : Bare root)
    (keys : List NormalizedGroupKey) :
    Pushes (fun _ => False) relationKeysHave True (compileRelationGroupKeys profile relation root keys) := by
  induction keys with
  | nil => exact pushes_pure fun number => by simp [relationKeysHave]
  | cons key rest ih =>
      refine pushes_congr (pushes_bind (pushes_compileRelationGroupKey profile relation hroot key) fun first =>
        pushes_bind ih fun others => pushes_pure fun number => ?_) (by simp)
      simp [relationKeysHave]

theorem bare_groupRoot (relation : QueryRelation) : Bare (groupRoot relation) := by
  intro number
  unfold groupRoot
  split <;> simp

theorem pushes_compilePqsRelationGroupBy (query : NormalizedGroupByQuery) :
    Pushes (fun _ => False) Sql.Has (spendsFilter query.relation query.predicate)
      (compilePqsRelationGroupBy profile query) := by
  unfold compilePqsRelationGroupBy
  refine pushes_ite (fun _ _ => trivial) fun _ => pushes_lift_bind fun source hsource => ?_
  obtain ⟨hwith, hrelation⟩ := bare_rootSource profile hsource
  have hroot := bare_groupRoot query.relation
  refine pushes_congr (pushes_bind (pushes_relationConditions profile _ (show (SqlAlias.named _).Plain from hroot) _)
    fun conditions => ?_) (iff_of_eq (and_true _))
  refine pushes_congr (pushes_bind (pushes_compileRelationGroupKeys profile _ hroot _) fun keys => ?_)
    (iff_of_eq (and_true _))
  refine pushes_lift_bind fun aggregates haggregates => pushes_pure fun number => ?_
  have haggregates := bare_relationAggregates profile (show (SqlAlias.named _).Plain from hroot) haggregates number
  have hrelation := hrelation number
  have hroot := hroot number
  rw [has_statement hwith, relationKeysHave_iff, keysHave_iff]
  simp only [List.map_map, Function.comp_def, anyHas_cons, anyHas_append, anyHas_nil, has_template, List.mem_cons,
    List.not_mem_nil, or_false, exists_eq_or_imp, exists_eq_left, has_join, has_fromSource, haggregates, hrelation, hroot,
    has_groupByClause, false_or]
  tauto

theorem pushes_compileQuery (query : NormalizedQuery) :
    Pushes (fun _ => False) Sql.Has (spendsQuery query) (compileQuery profile query) := by
  cases query with
  | findMany query =>
      refine pushes_ite (fun hcontracts => ?_) fun _ => pushes_compilePqsRelationFindMany profile query
      have hrelation : query.relation = .contracts := hcontracts
      rw [spendsQuery, hrelation]
      exact pushes_compileContractFindMany profile query
  | findUnique query =>
      have hspends : spendsQuery (.findUnique query)
          ↔ spendsFilter query.relation (some query.predicate) ∧ spendsIncludes query.includes := by
        simp [spendsQuery, spendsFilter]
      refine pushes_ite (fun hcontracts => ?_) fun _ =>
        pushes_congr (pushes_compilePqsRelationFindMany profile (normalizedUniqueAsFindMany query)) hspends.symm
      have hrelation : query.relation = .contracts := hcontracts
      rw [hrelation] at hspends
      exact pushes_congr (pushes_compileContractFindMany profile (normalizedUniqueAsFindMany query)) hspends.symm
  | count query =>
      refine pushes_ite (fun hcontracts => ?_) fun _ => pushes_compilePqsRelationCount profile query
      have hrelation : query.relation = .contracts := hcontracts
      rw [spendsQuery, hrelation]
      exact pushes_compileContractCount profile query
  | aggregate query =>
      refine pushes_ite (fun hcontracts => ?_) fun _ => pushes_compilePqsRelationAggregate profile query
      have hrelation : query.relation = .contracts := hcontracts
      rw [spendsQuery, hrelation]
      exact pushes_compileContractAggregate profile query
  | groupBy query =>
      refine pushes_ite (fun hcontracts => ?_) fun _ => pushes_compilePqsRelationGroupBy profile query
      have hrelation : query.relation = .contracts := hcontracts
      rw [spendsQuery, hrelation]
      exact pushes_compileContractGroupBy profile query

/-! ## The text -/

/-- A text of the compilers' own has no parameter. -/
theorem parameter_not_mem {digits : List Char} {skip : Nat} {chars : List Char} (h : complete skip chars = true) :
    SqlToken.parameter digits ∉ sqlTokens skip chars := by
  induction chars generalizing skip with
  | nil => cases skip <;> simp [sqlTokens]
  | cons c rest ih =>
      cases skip with
      | succ skip => exact ih h
      | zero =>
          rw [complete] at h
          rw [sqlTokens]
          split at h
          · rename_i hstart
            have hlexeme : lexemeAt id c rest = .word (rest.takeWhile isIdentifierPart).length := by
              simp only [lexemeAt, id_eq, hstart, if_true]
            simpa [hlexeme] using ih h
          · rename_i hstart
            rw [Bool.not_eq_true] at hstart
            split at h
            · rename_i hquote
              rw [Bool.and_eq_true] at h
              have hlexeme : lexemeAt id c rest = .literal (pgQuoted id c rest) := by
                rcases hquote with rfl | rfl <;> rfl
              simpa [hlexeme] using ih h.2
            · rename_i hquote
              simp only [Bool.and_eq_true, Bool.or_eq_true, decide_eq_true_eq] at h
              have hhyphen : c = '-' → rest.head? ≠ some '-' := fun hc => (h.1.2.resolve_left (not_not.mpr hc)).1
              have hlexeme := lexemeAt_single hstart hquote h.1.1 hhyphen
              rw [hlexeme]
              by_cases hspace : isPgSpace c = true
              · simpa [hspace] using ih h.2
              · simpa [hspace, h.1.1.1] using ih h.2

/-- The parameters that PostgreSQL reads are the placeholders. -/
theorem parameter_mem_iff (sql : Sql) (digits : List Char) :
    SqlToken.parameter digits ∈ sqlTokens 0 sql.text.toList
      ↔ ∃ number, sql.Has number ∧ digits = (toString number).toList := by
  have hwhole := sql.whole [] rfl
  rw [List.append_nil, sqlTokens, List.append_nil] at hwhole
  rw [Sql.text, String.toList_ofList, hwhole, tokensOf, List.mem_flatMap]
  constructor
  · rintro ⟨piece, hpiece, hmem⟩
    cases piece with
    | code written => exact absurd hmem (parameter_not_mem written.complete)
    | placeholder number => exact ⟨number, hpiece, by simpa [SqlPiece.tokens] using hmem⟩
    | identifier | string | givenIdentifier | givenString => simp [SqlPiece.tokens] at hmem
  · rintro ⟨number, hhas, rfl⟩
    exact ⟨.placeholder number, hhas, by simp [SqlPiece.tokens]⟩

/-- The parameters of a compiled text are `$1` to the number of bound values, unless a condition wastes a value: unless it is
on a JSON path, whose value is bound, and is an `in` with an empty list, which is written as `false`. Such a value has no
parameter. -/
theorem parameters_exact_iff (query : NormalizedQuery) {statement : CompiledPqsQuery}
    (hcompiled : compiled (compileQuery profile query) = .ok statement) :
    (∀ digits, SqlToken.parameter digits ∈ sqlTokens 0 statement.text.text.toList
        ↔ ∃ number, 1 ≤ number ∧ number ≤ statement.values.length ∧ digits = (toString number).toList)
      ↔ spendsQuery query := by
  obtain ⟨pushed, hrange, hhas⟩ : ∃ pushed, Range 0 statement.values.length pushed (spendsQuery query) ∧
      ∀ number, statement.text.Has number ↔ False ∨ pushed number := by
    rw [compiled] at hcompiled
    cases hrun : compileQuery profile query [] with
    | error message =>
        rw [hrun] at hcompiled
        cases hcompiled
    | ok result =>
        rw [hrun] at hcompiled
        obtain rfl := Except.ok.inj hcompiled
        exact (pushes_compileQuery profile query []).of_ok hrun
  simp only [false_or] at hhas
  simp only [parameter_mem_iff, hhas]
  rw [← hrange.all_iff]
  constructor
  · intro hexact number hfirst hlast
    obtain ⟨other, hother, hdigits⟩ := (hexact _).mpr ⟨number, hfirst, hlast, rfl⟩
    have hnumber : number = other := by
      rw [← decimalValue_toString number, String.toList_inj.mp hdigits, decimalValue_toString]
    exact hnumber ▸ hother
  · intro hall digits
    constructor
    · rintro ⟨number, hnumber, hdigits⟩
      exact ⟨number, (hrange.within number hnumber).1, (hrange.within number hnumber).2, hdigits⟩
    · rintro ⟨number, hfirst, hlast, hdigits⟩
      exact ⟨number, hall number hfirst hlast, hdigits⟩

end Compilers

/-- The contracts whose owner is one of no parties. -/
def ownedByNone : NormalizedQuery := .count ⟨.contracts, none, some (.scalar ["payload", "owner"] .in_ (.array [])), false⟩

theorem ownedByNone_wastes : ¬ spendsQuery ownedByNone := by
  intro h
  have hscalar : wastes .contracts ["payload", "owner"] .in_ (.array []) = false := h _ rfl
  exact absurd hscalar (by decide)

/-- The path to the owner is bound, and no parameter stands for it. -/
theorem parameters_exact_iff_ownedByNone :
    ∃ statement, compiled (compileQuery publicProfile ownedByNone) = .ok statement ∧
      ¬ ∀ digits, SqlToken.parameter digits ∈ sqlTokens 0 statement.text.text.toList
        ↔ ∃ number, 1 ≤ number ∧ number ≤ statement.values.length ∧ digits = (toString number).toList :=
  ⟨_, rfl, fun hexact => ownedByNone_wastes ((parameters_exact_iff _ ownedByNone rfl).mp hexact)⟩

end CantonSdk.Query.Pqs
