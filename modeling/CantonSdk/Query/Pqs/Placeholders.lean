import CantonSdk.Base.Checked
import CantonSdk.Base.Pushing
import CantonSdk.Query.Pqs.RelationalCompiler

/-!
# Placeholders and values

Which placeholders a compiled text has. Every compiler pushes the values from one number to another and hands out fragments
with placeholders for values in between; a fragment that is thrown away leaves its values without a placeholder.
-/

set_option linter.all false

namespace CantonSdk.Query.Pqs

open CantonSdk.Base CantonSdk.Query.Canonical

/-! ## Placeholders of fragments -/

def Sql.Has (sql : Sql) (number : Nat) : Prop := .placeholder number ∈ sql.pieces

section Fragments

variable {number : Nat}

@[simp] theorem has_template {parts : List (SqlCode × Sql)} {last : SqlCode}
    {hfits : fits (parts.map Prod.fst) last = true} :
    (Sql.template parts last hfits).Has number ↔ ∃ part ∈ parts, part.2.Has number := by
  simp [Sql.Has, Sql.template, templatePieces]

/-- The placeholders of a list of fragments. -/
def anyHas (fragments : List Sql) (number : Nat) : Prop := ∃ fragment ∈ fragments, fragment.Has number

@[simp] theorem anyHas_nil : ¬ anyHas [] number := by simp [anyHas]

@[simp] theorem anyHas_cons {first : Sql} {rest : List Sql} :
    anyHas (first :: rest) number ↔ first.Has number ∨ anyHas rest number := by simp [anyHas]

@[simp] theorem anyHas_append {front rest : List Sql} :
    anyHas (front ++ rest) number ↔ anyHas front number ∨ anyHas rest number := by simp [anyHas, or_and_right, exists_or]

@[simp] theorem has_join {separator : SqlCode} {fragments : List Sql} {hbetween : between separator = true} :
    (Sql.join separator fragments hbetween).Has number ↔ anyHas fragments number := by
  cases fragments with
  | nil => simp [Sql.join, Sql.Has, Sql.empty]
  | cons first rest => simp [Sql.join, anyHas]

@[simp] theorem has_placeholder {other : Nat} : (Sql.placeholder other).Has number ↔ number = other := by
  simp [Sql.Has, Sql.placeholder]

@[simp] theorem has_empty : ¬ Sql.empty.Has number := by simp [Sql.Has, Sql.empty]

@[simp] theorem has_code {written : SqlCode} : ¬ (Sql.code written).Has number := by simp [Sql.Has, Sql.code]

@[simp] theorem has_identifier {value : String} : ¬ (Sql.identifier value).Has number := by simp [Sql.Has, Sql.identifier]

@[simp] theorem has_string {value : String} : ¬ (Sql.string value).Has number := by simp [Sql.Has, Sql.string]

@[simp] theorem has_givenIdentifier {value : String} : ¬ (Sql.givenIdentifier value).Has number := by
  simp [Sql.Has, Sql.givenIdentifier]

@[simp] theorem has_givenString {value : String} : ¬ (Sql.givenString value).Has number := by
  simp [Sql.Has, Sql.givenString]

/-- What a column is qualified with has no placeholder. -/
def SqlAlias.Plain : SqlAlias → Prop
  | .named tableAlias => ∀ number, ¬ tableAlias.Has number
  | _ => True

variable {profile : PqsSchemaProfileV1} {tableAlias : SqlAlias}

@[simp] theorem has_relation {relation : QueryRelation} : ¬ (profile.relation relation).Has number := by
  simp [PqsSchemaProfileV1.relation]

theorem has_qualified (h : tableAlias.Plain) {column : String} : ¬ (qualified tableAlias column).Has number := by
  cases tableAlias with
  | none | contractRow => simp [qualified]
  | named sql => simpa [qualified] using h number

theorem has_logicalQualified (h : tableAlias.Plain) {column : String} {unquoted : SqlCode} :
    ¬ (logicalQualified tableAlias column unquoted).Has number := by
  unfold logicalQualified
  split
  · exact has_code
  · exact has_qualified h

@[simp] theorem has_identity {text : Sql} :
    (compileCanonicalPublicNumericIdentitySql text).Has number ↔ text.Has number := by
  simp [compileCanonicalPublicNumericIdentitySql, encodedIdentity]

@[simp] theorem has_identityParts {parts : List Sql} :
    (compileCanonicalPublicNumericIdentityPartsSql parts).Has number ↔ ∃ part ∈ parts, part.Has number := by
  simp only [compileCanonicalPublicNumericIdentityPartsSql, has_template, List.mem_singleton, exists_eq_left, has_join,
    anyHas, List.mem_flatMap]
  constructor
  · rintro ⟨fragment, ⟨part, hpart, hfragment⟩, hhas⟩
    simp only [List.mem_cons, List.not_mem_nil, or_false] at hfragment
    refine ⟨part, hpart, ?_⟩
    rcases hfragment with rfl | rfl | rfl <;> simpa using hhas
  · rintro ⟨part, hpart, hhas⟩
    exact ⟨_, ⟨part, hpart, List.mem_cons_self⟩, by simpa using hhas⟩

@[simp] theorem has_eventIdExpression {physical : Sql} : (eventIdExpression physical).Has number ↔ physical.Has number := by
  simp [eventIdExpression]

/-- An expression of a field has no placeholder. -/
theorem has_physicalField (h : tableAlias.Plain) {relation : QueryRelation} {field : String} {expression : Sql}
    (hexpression : compileCanonicalPhysicalField profile relation field tableAlias = .ok expression) : ¬ expression.Has number := by
  rw [compileCanonicalPhysicalField] at hexpression
  cases hcolumn : pqsColumn relation field with
  | error e =>
      rw [hcolumn] at hexpression
      cases hexpression
  | ok column =>
      rw [hcolumn] at hexpression
      have hplain (column : String) : ¬ (qualified tableAlias column).Has number := has_qualified h
      obtain rfl := Except.ok.inj hexpression
      split <;>
        simp [hplain, transactionOffsetExpression, eventTypeExpression, traceContextExpression,
          exerciseTypePublicKeyExpression,
          contractTypePublicKeyExpression, eventPublicKeyExpression, packagePublicKeyExpression]

theorem has_transactionField (h : tableAlias.Plain) {lifecycle : Lifecycle} {field : TransactionColumn} :
    ¬ (contractTransactionFieldExpression profile tableAlias lifecycle field).Has number := by
  unfold contractTransactionFieldExpression
  split
  · split <;> exact has_code
  · cases lifecycle <;> cases field <;> simp [has_qualified h]

theorem has_contractTypeField (h : tableAlias.Plain) {field : ContractTypeColumn} :
    ¬ (contractTypeFieldExpression profile tableAlias field).Has number := by
  unfold contractTypeFieldExpression
  split
  · split <;> exact has_code
  · simp [has_qualified h]

theorem has_contractPackageId (h : tableAlias.Plain) : ¬ (contractPackageIdExpression profile tableAlias).Has number := by
  unfold contractPackageIdExpression
  split <;> simp [has_logicalQualified h, has_qualified h]

end Fragments

theorem pushes_add (value : SqlValue) : Pushes (fun _ => False) Sql.Has True (add value) := by
  intro values
  refine ⟨fun number => number = values.length + 1, ?_, fun number => by simp⟩
  rw [List.length_append]
  exact range_single values.length

/-! ## Queries that use their values -/

/-- Whether the path behind a field is bound as a value. -/
def bindsPath (relation : QueryRelation) (field : String) (path : List String) : Bool :=
  if relation = .contracts then decide (field = "payload") else decide (path ≠ [])

/-- Whether the expression of the field is left out of the condition. -/
def dropsExpression (relation : QueryRelation) (field : String) (operator : ScalarOperator) (value : QueryValue) : Bool :=
  inverseEventType relation field operator || decide (operator = .has) || (decide (operator = .in_) && isEmptyArray value)

/-- A condition on a JSON path which the compiler binds, and whose expression it then leaves out. -/
def wastes (relation : QueryRelation) (path : List String) (operator : ScalarOperator) (value : QueryValue) : Bool :=
  let field := path.head?.getD "undefined"
  !(decide (relation = .contracts) && decide (field = "active" ∨ field = "witnesses")) && bindsPath relation field path.tail
    && dropsExpression relation field operator value

mutual

/-- No condition of the predicate wastes a value. -/
def spends (relation : QueryRelation) : QueryPredicate → Prop
  | .and children => spendsAll relation children
  | .or children => spendsAll relation children
  | .not child => spends relation child
  | .relation edge _ predicate => spends edge.target predicate
  | .scalar path operator value => wastes relation path operator value = false

def spendsAll (relation : QueryRelation) : List QueryPredicate → Prop
  | [] => True
  | child :: rest => spends relation child ∧ spendsAll relation rest

end

def spendsFilter (relation : QueryRelation) (predicate : Option QueryPredicate) : Prop :=
  ∀ condition ∈ predicate, spends relation condition

mutual

def spendsInclude : NormalizedInclude → Prop
  | ⟨edge, predicate, _, includes, _, _, _⟩ => spendsIncludes includes ∧ spendsFilter edge.target predicate

def spendsIncludes : List NormalizedInclude → Prop
  | [] => True
  | include_ :: rest => spendsInclude include_ ∧ spendsIncludes rest

end

/-- No condition of the query or of its includes wastes a value. -/
def spendsQuery : NormalizedQuery → Prop
  | .findMany query => spendsFilter query.relation query.predicate ∧ spendsIncludes query.includes
  | .findUnique query => spends query.relation query.predicate ∧ spendsIncludes query.includes
  | .count query => spendsFilter query.relation query.predicate
  | .aggregate query => spendsFilter query.relation query.predicate
  | .groupBy query => spendsFilter query.relation query.predicate

/-! ## Conditions -/

section Compilers

variable (profile : PqsSchemaProfileV1)

theorem pushes_jsonText {base : Sql} (hbase : ∀ number, ¬ base.Has number) (path : List String) :
    Pushes (fun _ => False) Sql.Has True (jsonText base path) := by
  refine pushes_congr (pushes_bind (pushes_add _) fun placeholder => pushes_pure fun number => ?_) (and_self_iff)
  simp [hbase]

/-- A compiler whose result has no placeholder of its own, beside the values it may bind. -/
theorem pushes_contractPredicateExpression {tableAlias : SqlAlias} (h : tableAlias.Plain) (field : String)
    (path : List String) :
    Pushes (fun _ => False) Sql.Has True (contractPredicateExpression profile tableAlias field path) := by
  unfold contractPredicateExpression
  split
  case h_1 => exact pushes_jsonText (fun number => has_logicalQualified h) path
  case h_8 =>
    split
    · exact pushes_pure fun number => by simp [has_contractPackageId h]
    · exact pushes_pure fun number => by simp [has_contractTypeField h]
    · exact pushes_pure fun number => by simp [has_contractTypeField h]
    · exact pushes_throw _
  all_goals
    first
    | exact pushes_throw _
    | exact pushes_pure fun number => by
        simp [has_logicalQualified h, has_contractPackageId h, has_transactionField h]

theorem pushes_canonicalExpression {tableAlias : SqlAlias} (h : tableAlias.Plain) (relation : QueryRelation)
    (field : String)
    (path : List String) :
    Pushes (fun _ => False) Sql.Has True (canonicalExpression profile relation tableAlias field path) := by
  unfold canonicalExpression
  refine pushes_ite (fun _ => pushes_contractPredicateExpression profile h field path) fun _ => ?_
  refine pushes_lift_bind fun physical hphysical => ?_
  have hplain (number : Nat) : ¬ physical.Has number := has_physicalField h hphysical
  exact pushes_ite (fun _ => pushes_pure fun number => by simp [hplain]) fun _ => pushes_jsonText hplain path

/-- An expression without placeholders. -/
def Bare (sql : Sql) : Prop := ∀ number, ¬ sql.Has number

theorem grows_jsonText (base : Sql) (path : List String) : Grows (jsonText base path) := fun values => by
  show values.length < (values ++ [SqlValue.texts path]).length
  rw [List.length_append]
  exact Nat.lt_succ_self _

/-- A path is bound with its expression. -/
theorem grows_canonicalExpression {relation : QueryRelation} (tableAlias : SqlAlias) {field : String} {path : List String}
    (hbinds : bindsPath relation field path = true) :
    Grows (canonicalExpression profile relation tableAlias field path) := by
  unfold canonicalExpression
  rw [bindsPath] at hbinds
  split at hbinds
  · rename_i hcontracts
    obtain rfl := of_decide_eq_true hbinds
    rw [if_pos hcontracts]
    exact grows_jsonText _ _
  · rename_i hother
    rw [if_neg hother]
    intro values
    refine ends_bind (ends_lift (fun physical _ => ?_) fun _ _ => trivial)
    rw [if_neg (of_decide_eq_true hbinds)]
    exact grows_jsonText _ _ values

theorem quiet_canonicalExpression {relation : QueryRelation} {tableAlias : SqlAlias} (h : tableAlias.Plain) {field : String}
    {path : List String} (hbinds : bindsPath relation field path = false) :
    Quiet Bare (canonicalExpression profile relation tableAlias field path) := by
  unfold canonicalExpression
  rw [bindsPath] at hbinds
  intro values
  split at hbinds
  · rename_i hcontracts
    rw [if_pos hcontracts]
    unfold contractPredicateExpression
    split
    all_goals
      first
      | exact ends_throw trivial
      | exact ends_pure ⟨rfl, fun _ => has_logicalQualified h⟩
      | exact ends_pure ⟨rfl, fun _ => has_contractPackageId h⟩
      | exact ends_pure ⟨rfl, fun _ => has_transactionField h⟩
      | exact absurd hbinds (by decide)
      | split
    · exact ends_pure ⟨rfl, fun _ => has_contractPackageId h⟩
    · exact ends_pure ⟨rfl, fun _ => has_contractTypeField h⟩
    · exact ends_pure ⟨rfl, fun _ => has_contractTypeField h⟩
    · exact ends_throw trivial
  · rename_i hother
    rw [if_neg hother]
    refine ends_bind (ends_lift (fun physical hphysical => ?_) fun _ _ => trivial)
    rw [if_pos (not_not.mp (of_decide_eq_false hbinds))]
    exact ends_pure ⟨rfl, fun _ => has_physicalField h hphysical⟩

theorem pushes_scalarCondition {operator : ScalarOperator} {expression column : Sql} (hcolumn : Bare column)
    {value : QueryValue}
    (hkept : ¬ (operator = .has ∨ operator = .in_ ∧ isEmptyArray value = true)) :
    Pushes expression.Has Sql.Has True (scalarCondition operator expression column value) := by
  have hadded (text : {text : SqlCode // between text = true}) :
      Pushes expression.Has Sql.Has True (do return .join text.1 [expression, ← add (.value value)] text.2) :=
    pushes_congr (pushes_bind (pushes_add _) fun _ => pushes_pure fun number => by simp [or_comm]) and_self_iff
  cases operator with
  | is | isNot => exact pushes_pure fun number => by simp
  | in_ =>
      have hempty : isEmptyArray value = false := by simpa using hkept
      simp only [scalarCondition, hempty]
      exact pushes_congr (pushes_bind (pushes_add _) fun _ => pushes_pure fun number => by simp) and_self_iff
  | has => exact absurd (.inl rfl) hkept
  | equals | lt | lte | gt | gte | like | ilike => exact hadded _

/-- A condition that leaves out its expression. -/
theorem pushes_scalarCondition_dropped {operator : ScalarOperator} {expression column : Sql} (hcolumn : Bare column)
    {value : QueryValue} (hdropped : operator = .has ∨ operator = .in_ ∧ isEmptyArray value = true) :
    Pushes (fun _ => False) Sql.Has True (scalarCondition operator expression column value) := by
  rcases hdropped with rfl | ⟨rfl, hempty⟩
  · refine pushes_congr (pushes_bind (pushes_add _) fun placeholder => pushes_pure fun number => ?_) and_self_iff
    have := hcolumn number
    simp [this]
  · simp only [scalarCondition, hempty]
    exact pushes_pure fun number => by simp

/-- A condition that leaves out its expression, or has one without placeholders. -/
theorem pushes_scalarCondition_alone {operator : ScalarOperator} {expression column : Sql} (hcolumn : Bare column)
    {value : QueryValue} (h : Bare expression ∨ operator = .has ∨ operator = .in_ ∧ isEmptyArray value = true) :
    Pushes (fun _ => False) Sql.Has True (scalarCondition operator expression column value) := by
  by_cases hdropped : operator = .has ∨ operator = .in_ ∧ isEmptyArray value = true
  · exact pushes_scalarCondition_dropped hcolumn hdropped
  · have hbare : expression.Has = fun _ => False :=
      funext fun number => eq_false ((h.resolve_right hdropped) number)
    exact hbare ▸ pushes_scalarCondition hcolumn hdropped

theorem pushes_compileScalar {tableAlias : SqlAlias} (h : tableAlias.Plain) (relation : QueryRelation) (path : List String)
    (operator : ScalarOperator) (value : QueryValue) :
    Pushes (fun _ => False) Sql.Has (wastes relation path operator value = false)
      (compileScalar profile relation tableAlias path operator value) := by
  unfold compileScalar
  refine pushes_ite (fun hactive => ?_) fun hactive => pushes_ite (fun hwitnesses => ?_) fun hwitnesses => ?_
  · refine pushes_congr ?_ (iff_of_true trivial (by simp [wastes, hactive]) : True ↔ _)
    dsimp only
    split <;> exact pushes_pure fun number => by simp [has_logicalQualified h]
  · refine pushes_congr (pushes_bind (pushes_add _) fun party => pushes_pure fun number => ?_)
      (iff_of_true ⟨trivial, trivial⟩ (by simp [wastes, hwitnesses]))
    simp [has_logicalQualified h]
  · have hbare (column : String) : Bare (qualified tableAlias column) := fun _ => has_qualified h
    have hwastes : wastes relation path operator value
        = (bindsPath relation (path.head?.getD "undefined") path.tail
          && dropsExpression relation (path.head?.getD "undefined") operator value) := by
      have hneither : (decide (relation = .contracts)
          && decide (path.head?.getD "undefined" = "active" ∨ path.head?.getD "undefined" = "witnesses")) = false := by
        rw [Bool.and_eq_false_iff, decide_eq_false_iff_not, decide_eq_false_iff_not, ← not_and_or]
        tauto
      rw [wastes]
      simp only [hneither, Bool.not_false, Bool.true_and]
    refine pushes_lift_bind fun column _ => ?_
    -- What the condition is made of when the expression is not in it, or has no placeholder.
    have halone (expression : Sql)
        (hexpression : Bare expression ∨ dropsExpression relation (path.head?.getD "undefined") operator value = true) :
        Pushes (fun _ => False) Sql.Has True
          (if inverseEventType relation (path.head?.getD "undefined") operator = true then
            scalarCondition operator (qualified tableAlias column) (qualified tableAlias column) (physicalEventType value)
          else scalarCondition operator expression (qualified tableAlias column) value) := by
      refine pushes_ite (fun _ => pushes_scalarCondition_alone (hbare column) (.inl (hbare column))) fun hinverse => ?_
      refine pushes_scalarCondition_alone (hbare column) (hexpression.imp id fun hdrops => ?_)
      simpa [dropsExpression, hinverse] using hdrops
    cases hbinds : bindsPath relation (path.head?.getD "undefined") path.tail with
    | false =>
        refine pushes_congr ?_ (iff_of_true trivial (by rw [hwastes, hbinds]; rfl) : True ↔ _)
        exact pushes_bind_quiet (quiet_canonicalExpression profile h hbinds) fun expression hexpression =>
          halone expression (.inl hexpression)
    | true =>
        cases hdrops : dropsExpression relation (path.head?.getD "undefined") operator value with
        | true =>
            refine pushes_congr ?_ (iff_of_false id (by rw [hwastes, hbinds, hdrops]; decide) : False ↔ _)
            exact pushes_bind_waste (pushes_canonicalExpression profile h _ _ _)
              (grows_canonicalExpression profile _ hbinds)
              fun expression => halone expression (.inr hdrops)
        | false =>
            refine pushes_congr ?_ (iff_of_true ⟨trivial, trivial⟩ (by rw [hwastes, hdrops]; simp) : True ∧ True ↔ _)
            refine pushes_bind (pushes_canonicalExpression profile h _ _ _) fun expression => ?_
            have hkept : inverseEventType relation (path.head?.getD "undefined") operator = false ∧
                ¬ (operator = .has ∨ operator = .in_ ∧ isEmptyArray value = true) := by
              simpa [dropsExpression, and_assoc, not_or] using hdrops
            simp only [hkept.1, Bool.false_eq_true, if_false, false_or]
            exact pushes_scalarCondition (hbare column) hkept.2

/-! ## Predicates and includes -/

theorem plain_contractRow : SqlAlias.contractRow.Plain := trivial

theorem plain_none : SqlAlias.none.Plain := trivial

theorem plain_edgeAlias (edge : QueryEdge) : (SqlAlias.named (edgeAlias edge)).Plain := fun _ => has_identifier

theorem has_edgeJoin {source : QueryRelation} {edge : QueryEdge} {parentAlias : SqlAlias} (h : parentAlias.Plain)
    {join : Sql}
    (hjoin : compileCanonicalPhysicalEdgeJoin profile source edge parentAlias (edgeAlias edge) = .ok join) : Bare join := by
  intro number
  have hparent (column : String) : ¬ (qualified parentAlias column).Has number := has_qualified h
  have htarget (column : String) : ¬ (qualified (.named (edgeAlias edge)) column).Has number :=
    has_qualified (plain_edgeAlias edge)
  unfold compileCanonicalPhysicalEdgeJoin at hjoin
  by_cases hsource : edge.source = source
  case neg =>
    rw [if_pos hsource] at hjoin
    cases hjoin
  case pos =>
    rw [if_neg (not_not.mpr hsource)] at hjoin
    dsimp only at hjoin
    split at hjoin
    · obtain ⟨right, hright, heq⟩ := bind_eq_ok.mp hjoin
      obtain rfl := Except.ok.inj heq
      simp [contractTypePublicKeyExpression, htarget, has_physicalField h hright]
    · obtain ⟨left, hleft, heq⟩ := bind_eq_ok.mp hjoin
      obtain ⟨right, hright, heq⟩ := bind_eq_ok.mp heq
      obtain rfl := Except.ok.inj heq
      simp [has_physicalField (plain_edgeAlias _) hleft, has_physicalField h hright]
    · obtain ⟨left, hleft, heq⟩ := bind_eq_ok.mp hjoin
      obtain ⟨right, hright, heq⟩ := bind_eq_ok.mp heq
      obtain rfl := Except.ok.inj heq
      simp [has_physicalField (plain_edgeAlias _) hleft, has_physicalField h hright]
    · obtain rfl := Except.ok.inj hjoin
      split <;> simp [htarget, hparent]

@[simp] theorem has_edgeAlias {edge : QueryEdge} {number : Nat} : ¬ (edgeAlias edge).Has number := has_identifier

mutual

theorem pushes_compileCanonicalPredicate {tableAlias : SqlAlias} (h : tableAlias.Plain) (relation : QueryRelation) :
    ∀ predicate : QueryPredicate, Pushes (fun _ => False) Sql.Has (spends relation predicate)
      (compileCanonicalPredicate profile relation tableAlias predicate)
  | .and [] => pushes_congr (pushes_pure fun number => by simp) (by simp [spends, spendsAll])
  | .or [] => pushes_congr (pushes_pure fun number => by simp) (by simp [spends, spendsAll])
  | .and (child :: rest) =>
      pushes_congr (pushes_bind (pushes_compileCanonicalPredicates h relation (child :: rest)) fun children =>
        pushes_pure fun number => by simp) (iff_of_eq (and_true _))
  | .or (child :: rest) =>
      pushes_congr (pushes_bind (pushes_compileCanonicalPredicates h relation (child :: rest)) fun children =>
        pushes_pure fun number => by simp) (iff_of_eq (and_true _))
  | .not child =>
      pushes_congr (pushes_bind (pushes_compileCanonicalPredicate h relation child) fun condition =>
        pushes_pure fun number => by simp) (iff_of_eq (and_true _))
  | .relation edge quantifier predicate => by
      refine pushes_lift_bind fun join hjoin => ?_
      have hbare : Bare join := has_edgeJoin profile h hjoin
      have hpredicate := pushes_compileCanonicalPredicate (plain_edgeAlias edge) edge.target predicate
      refine pushes_congr (pushes_bind hpredicate fun condition => pushes_pure fun number => ?_) (iff_of_eq (and_true _))
      have := hbare number
      cases quantifier <;> simp [this]
  | .scalar path operator value => pushes_compileScalar profile h relation path operator value

theorem pushes_compileCanonicalPredicates {tableAlias : SqlAlias} (h : tableAlias.Plain) (relation : QueryRelation) :
    ∀ predicates : List QueryPredicate, Pushes (fun _ => False) anyHas (spendsAll relation predicates)
      (compileCanonicalPredicates profile relation tableAlias predicates)
  | [] => pushes_congr (pushes_pure fun number => by simp) (by simp [spendsAll])
  | child :: rest =>
      pushes_congr (pushes_bind (pushes_compileCanonicalPredicate h relation child) fun first =>
        pushes_bind (pushes_compileCanonicalPredicates h relation rest) fun others => pushes_pure fun number => by simp)
        (by rw [and_true, spendsAll])

end

/-- Fragments without placeholders. -/
def AllBare (fragments : List Sql) : Prop := ∀ number, ¬ anyHas fragments number

theorem bare_contractField {tableAlias : SqlAlias} (h : tableAlias.Plain) (field : String) :
    Bare ((contractFieldExpression profile tableAlias field).getD .empty) := by
  intro number
  unfold contractFieldExpression
  split <;> simp [has_qualified h, has_contractPackageId h, has_contractTypeField h, has_transactionField h]

theorem bare_includedFields {target : QueryRelation} {select : Option NormalizedSelection} {tableAlias : SqlAlias}
    (h : tableAlias.Plain) {fields : List Sql}
    (hfields : compileCanonicalIncludedFields profile target select tableAlias = .ok fields) : AllBare fields := by
  rintro number ⟨fragment, hfragment, hhas⟩
  unfold compileCanonicalIncludedFields at hfields
  split at hfields
  · obtain rfl := Except.ok.inj hfields
    obtain ⟨field, -, hmem⟩ := List.mem_flatMap.mp hfragment
    simp only [List.mem_cons, List.not_mem_nil, or_false] at hmem
    rcases hmem with rfl | rfl
    · exact has_string hhas
    · exact bare_contractField profile h field number hhas
  · obtain ⟨pairs, hpairs, heq⟩ := bind_eq_ok.mp hfields
    obtain rfl := Except.ok.inj heq
    obtain ⟨pair, hpair, hmem⟩ := List.mem_flatten.mp hfragment
    obtain ⟨field, -, hfield⟩ := exists_left_of_mem (mapM_eq_ok.mp hpairs) hpair
    obtain ⟨expression, hexpression, hresult⟩ := bind_eq_ok.mp hfield
    have hbare : ¬ expression.Has number := has_physicalField h hexpression
    split at hresult <;>
      · obtain rfl := Except.ok.inj hresult
        simp only [List.mem_cons, List.not_mem_nil, or_false] at hmem
        rcases hmem with rfl | rfl <;> simp [hbare] at hhas

theorem bare_includedJsonBase {target : QueryRelation} {field : String} {tableAlias : SqlAlias} (h : tableAlias.Plain)
    {base : Sql}
    (hbase : includedJsonBase profile target field tableAlias = .ok base) : Bare base := by
  intro number
  unfold includedJsonBase at hbase
  split at hbase
  · split at hbase
    · obtain rfl := Except.ok.inj hbase
      exact has_qualified h
    · cases hbase
  · split at hbase
    · cases hbase
    · exact has_physicalField h hbase

@[simp] theorem has_jsonScalar {text : Sql} {as : JsonScalarType} {number : Nat} :
    (jsonScalar text as).Has number ↔ text.Has number := by
  cases as <;> simp [jsonScalar]

@[simp] theorem has_named {expression name : Sql} {number : Nat} :
    (named expression name).Has number ↔ expression.Has number ∨ name.Has number := by
  simp [named]

theorem pushes_compileIncludedJson {tableAlias : SqlAlias} (h : tableAlias.Plain) (target : QueryRelation)
    (json : List NormalizedJsonSelection) :
    Pushes (fun _ => False) anyHas True (compileIncludedJson profile target tableAlias json) := by
  induction json with
  | nil => exact pushes_pure fun number => by simp
  | cons projection rest ih =>
      refine pushes_lift_bind fun base hbase => ?_
      have hbare := bare_includedJsonBase profile h hbase
      refine pushes_congr (pushes_bind (pushes_jsonText hbare _) fun text =>
        pushes_bind ih fun others => pushes_pure ?_) (by simp)
      exact fun number => by simp

theorem pushes_compileFilter {tableAlias : SqlAlias} (h : tableAlias.Plain) (relation : QueryRelation)
    (predicate : Option QueryPredicate) :
    Pushes (fun _ => False) Sql.Has (spendsFilter relation predicate)
      (compileFilter profile relation tableAlias predicate) := by
  cases predicate with
  | none => exact pushes_congr (pushes_pure fun number => by simp) (by simp [spendsFilter])
  | some predicate =>
      exact pushes_congr (pushes_compileCanonicalPredicate profile h relation predicate) (by simp [spendsFilter])

theorem pushes_includedLimit (cardinality : Cardinality) (take : Option Nat) :
    Pushes (fun _ => False) anyHas True (includedLimit cardinality take) := by
  cases cardinality with
  | one => exact pushes_pure fun number => by simp
  | many => exact pushes_congr (pushes_bind (pushes_add _) fun limit => pushes_pure fun number => by simp) and_self_iff

theorem pushes_includedOffset (cardinality : Cardinality) (skip : Nat) :
    Pushes (fun _ => False) anyHas True (includedOffset cardinality skip) := by
  cases cardinality with
  | one => exact pushes_pure fun number => by simp
  | many =>
      refine pushes_ite (fun _ => pushes_pure fun number => by simp) fun _ => ?_
      exact pushes_congr (pushes_bind (pushes_add _) fun offset => pushes_pure fun number => by simp) and_self_iff

theorem bare_directed {field : Sql} (h : Bare field) (direction : QueryOrderDirection) :
    Bare (directed field direction) := by
  intro number
  have := h number
  cases direction <;> simp [directed, this]

theorem bare_orderBy {orderBy : List NormalizedOrder} {fields : String → Option Sql}
    (h : ∀ name, ∀ field ∈ fields name, Bare field) : AllBare (compileCanonicalOrderBy orderBy fields).toList := by
  intro number
  have hfield (name : String) : Bare ((fields name).getD (.code (code "undefined"))) := by
    intro number
    cases hname : fields name with
    | none => simp
    | some field => exact h name field hname number
  unfold compileCanonicalOrderBy
  split
  · simp
  · have hitems : ¬ anyHas (orderBy.map fun order =>
        directed ((fields (order.path.head?.getD "undefined")).getD (.code (code "undefined"))) order.direction)
        number := by
      rintro ⟨item, hitem, hhas⟩
      obtain ⟨order, -, rfl⟩ := List.mem_map.mp hitem
      exact bare_directed (hfield _) _ number hhas
    simpa using hitems

theorem bare_contractOrderField {tableAlias : SqlAlias} (h : tableAlias.Plain) {contractId : Sql} (hid : Bare contractId)
    (name : String) : ∀ field ∈ contractOrderField profile tableAlias contractId name, Bare field := by
  intro field hfield number
  unfold contractOrderField at hfield
  split at hfield <;> rw [Option.mem_def] at hfield <;> cases hfield
  · exact hid number
  all_goals exact has_transactionField h

theorem bare_physicalOrderBy {tableAlias : SqlAlias} (h : tableAlias.Plain) (relation : QueryRelation)
    (orderBy : List NormalizedOrder) :
    AllBare (compileCanonicalPhysicalOrderBy profile relation orderBy tableAlias).toList := by
  refine bare_orderBy fun name field hfield => ?_
  split at hfield
  · exact bare_contractOrderField profile h (fun _ => has_qualified h) name field hfield
  · cases hexpression : compileCanonicalPhysicalField profile relation name tableAlias with
    | error e =>
        rw [hexpression] at hfield
        cases hfield
    | ok expression =>
        rw [hexpression] at hfield
        obtain rfl := Option.some.inj hfield
        exact fun number => has_physicalField h hexpression

theorem has_includedExpression {edge : QueryEdge} {object condition : Sql} {tail : List Sql} {number : Nat} :
    (includedExpression profile edge object condition tail).Has number
      ↔ object.Has number ∨ condition.Has number ∨ edge.cardinality = .many ∧ anyHas tail number := by
  unfold includedExpression
  cases edge.cardinality <;> simp

/-- The placeholders of compiled includes. -/
def includesHave (includes : List CompiledPqsInclude) (number : Nat) : Prop :=
  ∃ include_ ∈ includes, include_.expression.Has number

theorem anyHas_selections {includes : List CompiledPqsInclude} {number : Nat} :
    anyHas (includes.map (·.selection)) number ↔ includesHave includes number := by
  simp [anyHas, includesHave, CompiledPqsInclude.selection]

theorem anyHas_nested {includes : List CompiledPqsInclude} {number : Nat} :
    anyHas (includes.flatMap fun selection => [Sql.string selection.key, selection.expression]) number
      ↔ includesHave includes number := by
  induction includes with
  | nil => simp [includesHave]
  | cons first rest ih =>
      rw [List.flatMap_cons, anyHas_append, ih]
      simp [includesHave]

mutual

theorem pushes_compileCanonicalPhysicalInclude (source : QueryRelation) {parentAlias : SqlAlias} (h : parentAlias.Plain) :
    ∀ include_ : NormalizedInclude, Pushes (fun _ => False) (fun compiled => compiled.expression.Has)
      (spendsInclude include_)
      (compileCanonicalPhysicalInclude profile source parentAlias include_)
  | ⟨edge, predicate, select, includes, orderBy, skip, take⟩ => by
      rw [compileCanonicalPhysicalInclude]
      refine pushes_ite (fun _ _ => trivial) fun _ => ?_
      dsimp only
      have halias := plain_edgeAlias edge
      refine pushes_lift_bind fun fields hfields => ?_
      have hfieldsBare := bare_includedFields profile halias hfields
      refine pushes_congr (pushes_bind (pushes_compileIncludedJson profile halias _ _) fun json => ?_)
        (iff_of_eq (true_and _))
      refine pushes_bind (pushes_compileCanonicalPhysicalIncludes edge.target halias includes) fun nested => ?_
      refine pushes_congr (pushes_bind (pushes_compileFilter profile halias _ predicate) fun filter => ?_)
        (iff_of_eq (and_true _))
      refine pushes_lift_bind fun join hjoin => ?_
      have hjoinBare := has_edgeJoin profile h hjoin
      have horderBare := bare_physicalOrderBy profile halias edge.target orderBy
      cases hcardinality : edge.cardinality with
      | one =>
          have hquiet : Quiet (fun _ => True) (pure [] : Compile (List Sql)) := fun _ => ends_pure ⟨rfl, trivial⟩
          refine pushes_bind_quiet hquiet fun limit _ => pushes_bind_quiet hquiet fun offset _ => ?_
          refine pushes_pure fun number => ?_
          have := hfieldsBare number
          have := hjoinBare number
          simp_all [has_includedExpression, anyHas_nested]
      | many =>
          refine pushes_congr (pushes_bind (pushes_includedLimit _ _) fun limit => ?_) (iff_of_eq (true_and _))
          refine pushes_congr (pushes_bind (pushes_includedOffset _ _) fun offset => pushes_pure fun number => ?_)
            (iff_of_eq (true_and _))
          have := hfieldsBare number
          have := hjoinBare number
          have := horderBare number
          simp_all [has_includedExpression, anyHas_nested, or_assoc]

theorem pushes_compileCanonicalPhysicalIncludes (source : QueryRelation) {parentAlias : SqlAlias} (h : parentAlias.Plain) :
    ∀ includes : List NormalizedInclude, Pushes (fun _ => False) includesHave (spendsIncludes includes)
      (compileCanonicalPhysicalIncludes profile source parentAlias includes)
  | [] => pushes_congr (pushes_pure fun number => by simp [includesHave]) (by simp [spendsIncludes])
  | include_ :: rest =>
      pushes_congr (pushes_bind (pushes_compileCanonicalPhysicalInclude source h include_) fun first =>
        pushes_bind (pushes_compileCanonicalPhysicalIncludes source h rest) fun others =>
          pushes_pure fun number => by simp [includesHave])
        (by rw [and_true, spendsIncludes])

end

end Compilers

end CantonSdk.Query.Pqs
