import CantonSdk.Base.Alike
import CantonSdk.Query.Pqs.RelationalCompiler

/-!
# What callers give stays out of the text

The outline of a query is the query without the strings that a caller has given: the values of its conditions, the
segments of its JSON paths, its parties and the names of its JSON projections and groups. Queries with one outline
compile to texts that differ in nothing but what stands between quotes for such a name.
-/

set_option linter.all false

namespace CantonSdk.Query.Pqs

open CantonSdk.Base CantonSdk.Query.Canonical

/-! ## Outlines -/

mutual

def outlineValue : QueryValue → QueryValue
  | .text _ => .text ""
  | .array items => .array (outlineValues items)
  | .object fields => .object (outlineEntries fields)
  | value => value

def outlineValues : List QueryValue → List QueryValue
  | [] => []
  | item :: rest => outlineValue item :: outlineValues rest

def outlineEntries : List (String × QueryValue) → List (String × QueryValue)
  | [] => []
  | (_, value) :: rest => ("", outlineValue value) :: outlineEntries rest

end

def outlineStrings (strings : List String) : List String := strings.map fun _ => ""

/-- A path starts with a field of the schema; under `templateId` there is another one, and elsewhere a JSON path. -/
def outlinePath : List String → List String
  | [] => []
  | field :: rest => if field = "templateId" then field :: rest else field :: outlineStrings rest

mutual

def outlinePredicate : QueryPredicate → QueryPredicate
  | .and children => .and (outlinePredicates children)
  | .or children => .or (outlinePredicates children)
  | .not child => .not (outlinePredicate child)
  | .scalar path operator value => .scalar (outlinePath path) operator (outlineValue value)
  | .relation edge quantifier predicate => .relation edge quantifier (outlinePredicate predicate)

def outlinePredicates : List QueryPredicate → List QueryPredicate
  | [] => []
  | child :: rest => outlinePredicate child :: outlinePredicates rest

end

def outlineProjection (projection : NormalizedJsonSelection) : NormalizedJsonSelection :=
  { projection with name := "", path := outlineStrings projection.path }

def outlineSelection (select : NormalizedSelection) : NormalizedSelection :=
  { select with json := select.json.map outlineProjection }

mutual

def outlineInclude : NormalizedInclude → NormalizedInclude
  | ⟨edge, predicate, select, includes, orderBy, skip, take⟩ =>
      ⟨edge, predicate.map outlinePredicate, select.map outlineSelection, outlineIncludes includes, orderBy, skip, take⟩

def outlineIncludes : List NormalizedInclude → List NormalizedInclude
  | [] => []
  | include_ :: rest => outlineInclude include_ :: outlineIncludes rest

end

def outlineGroupKey : NormalizedGroupKey → NormalizedGroupKey
  | .json field _ path as => .json field "" (outlineStrings path) as
  | key => key

/-- The query without the strings that a caller has given. -/
def outline : NormalizedQuery → NormalizedQuery
  | .findMany query => .findMany { query with
      parties := query.parties.map outlineStrings
      predicate := query.predicate.map outlinePredicate
      select := query.select.map outlineSelection
      includes := outlineIncludes query.includes }
  | .findUnique query => .findUnique { query with
      predicate := outlinePredicate query.predicate
      select := query.select.map outlineSelection
      includes := outlineIncludes query.includes }
  | .count query => .count { query with
      parties := query.parties.map outlineStrings
      predicate := query.predicate.map outlinePredicate }
  | .aggregate query => .aggregate { query with predicate := query.predicate.map outlinePredicate }
  | .groupBy query => .groupBy { query with
      predicate := query.predicate.map outlinePredicate
      by_ := query.by_.map outlineGroupKey }

/-! ## Skeletons -/

/-- The text of a piece, unless a caller has given it. -/
def SqlPiece.fixed : SqlPiece → Option (List Char)
  | .givenIdentifier _ | .givenString _ => none
  | piece => some piece.text

/-- The text with a gap for every name that a caller has given. -/
def Sql.skeleton (sql : Sql) : List (Option (List Char)) := sql.pieces.map SqlPiece.fixed

def SameSkeleton (a b : Sql) : Prop := a.skeleton = b.skeleton

/-- What stands in a gap is read as one literal, and what stands around it as itself. -/
def skeletonTokens (skeleton : List (Option (List Char))) : List SqlToken :=
  skeleton.flatMap fun
    | none => [.literal]
    | some text => sqlTokens 0 text

theorem tokens_eq_fixed (piece : SqlPiece) : piece.tokens = skeletonTokens [piece.fixed] := by
  have hquoted (sql : Sql) : sqlTokens 0 (textOf sql.pieces) = tokensOf sql.pieces := by
    simpa [sqlTokens] using sql.whole [] rfl
  cases piece with
  | code written => simp [skeletonTokens, SqlPiece.fixed, SqlPiece.tokens, SqlPiece.text]
  | placeholder number =>
      simpa [skeletonTokens, SqlPiece.fixed, SqlPiece.text, textOf, tokensOf, Sql.placeholder] using
        (hquoted (.placeholder number)).symm
  | identifier value =>
      simpa [skeletonTokens, SqlPiece.fixed, SqlPiece.text, textOf, tokensOf, Sql.identifier] using
        (hquoted (.identifier value)).symm
  | string value =>
      simpa [skeletonTokens, SqlPiece.fixed, SqlPiece.text, textOf, tokensOf, Sql.string] using
        (hquoted (.string value)).symm
  | givenIdentifier value => rfl
  | givenString value => rfl

/-- A fragment is read as what its skeleton is read as. -/
theorem sqlTokens_skeleton (sql : Sql) : sqlTokens 0 sql.text.toList = skeletonTokens sql.skeleton := by
  have hwhole := sql.whole [] rfl
  rw [List.append_nil, sqlTokens, List.append_nil] at hwhole
  rw [Sql.text, String.toList_ofList, hwhole, tokensOf, skeletonTokens, Sql.skeleton, List.flatMap_map]
  exact congrArg (List.flatMap · sql.pieces) (funext fun piece => by rw [tokens_eq_fixed]; simp [skeletonTokens])

/-- Templates of the same texts with holes alike. -/
theorem SameSkeleton.template {parts parts' : List (SqlCode × Sql)} {last : SqlCode} {sql sql' : Sql}
    (hsql : sql.pieces = templatePieces parts last) (hsql' : sql'.pieces = templatePieces parts' last)
    (h : List.Forall₂ (fun part part' => part.1 = part'.1 ∧ SameSkeleton part.2 part'.2) parts parts') :
    SameSkeleton sql sql' := by
  rw [SameSkeleton, Sql.skeleton, Sql.skeleton, hsql, hsql']
  clear hsql hsql'
  induction h with
  | nil => rfl
  | cons hpart _ ih =>
      have hhole := hpart.2
      rw [SameSkeleton, Sql.skeleton, Sql.skeleton] at hhole
      simp only [templatePieces_cons, List.map_cons, List.map_append, hpart.1, hhole, ih]

theorem SameSkeleton.join {separator : SqlCode} {fragments fragments' : List Sql} (hbetween : between separator = true)
    (h : List.Forall₂ SameSkeleton fragments fragments') :
    SameSkeleton (.join separator fragments hbetween) (.join separator fragments' hbetween) := by
  cases h with
  | nil => rfl
  | cons hfirst hrest =>
      refine .template rfl rfl (.cons ⟨rfl, hfirst⟩ ?_)
      rw [List.forall₂_map_left_iff, List.forall₂_map_right_iff]
      exact hrest.imp fun _ _ hsql => ⟨rfl, hsql⟩

theorem SameSkeleton.refl (sql : Sql) : SameSkeleton sql sql := Eq.refl _

theorem SameSkeleton.refl_list (fragments : List Sql) : List.Forall₂ SameSkeleton fragments fragments :=
  List.forall₂_same.mpr fun sql _ => .refl sql

/-! ## Values -/

@[simp] theorem isEmptyArray_outline (value : QueryValue) : isEmptyArray (outlineValue value) = isEmptyArray value := by
  cases value with
  | array items => cases items <;> simp [outlineValue, outlineValues, isEmptyArray]
  | _ => simp [outlineValue, isEmptyArray]

@[simp] theorem isEmptyArray_physicalEventType (value : QueryValue) :
    isEmptyArray (physicalEventType value) = isEmptyArray value := by
  cases value with
  | array items => cases items <;> simp [physicalEventType, physicalEventTypes, isEmptyArray]
  | _ => simp [physicalEventType, isEmptyArray]

@[simp] theorem head_outlinePath (path : List String) : (outlinePath path).head? = path.head? := by
  cases path with
  | nil => rfl
  | cons field rest =>
      rw [outlinePath]
      split <;> rfl

@[simp] theorem tail_outlinePath_eq_nil (path : List String) : (outlinePath path).tail = [] ↔ path.tail = [] := by
  cases path with
  | nil => rfl
  | cons field rest =>
      rw [outlinePath]
      split <;> simp [outlineStrings]

/-- The numbers of the values that have been pushed agree. -/
def SameCount (s t : List SqlValue) : Prop := s.length = t.length

abbrev CompiledAlike (x y : Compile Sql) : Prop := Alike SameCount SameSkeleton x y

theorem add_alike (value value' : SqlValue) : CompiledAlike (add value) (add value') := by
  intro s t hs
  have hcount : s.length = t.length := hs
  refine ⟨?_, ?_⟩
  · show SameSkeleton (.placeholder (s.length + 1)) (.placeholder (t.length + 1))
    rw [hcount]
    exact .refl _
  · show (s ++ [value]).length = (t ++ [value']).length
    rw [List.length_append, List.length_append, hcount]
    rfl

theorem jsonText_alike (base : Sql) (path path' : List String) : CompiledAlike (jsonText base path) (jsonText base path') :=
  alike_bind (add_alike _ _) fun _ _ hadd => alike_pure (.template rfl rfl (.cons ⟨rfl, .refl _⟩ (.cons ⟨rfl, hadd⟩ .nil)))

section Profile

variable (profile : PqsSchemaProfileV1)

/-! ## Predicates -/

/-- Only under `templateId` does the text depend on what stands behind the field. -/
theorem contractPredicateExpression_alike (tableAlias : SqlAlias) (field : String) {path path' : List String}
    (hpath : field = "templateId" → path = path') :
    CompiledAlike (contractPredicateExpression profile tableAlias field path)
      (contractPredicateExpression profile tableAlias field path') := by
  unfold contractPredicateExpression
  split
  case h_1 => exact jsonText_alike _ _ _
  case h_8 =>
    rw [hpath rfl]
    split <;> first | exact alike_pure (.refl _) | exact alike_throw _
  all_goals first | exact alike_pure (.refl _) | exact alike_throw _

theorem canonicalExpression_alike (relation : QueryRelation) (tableAlias : SqlAlias) (path : List String) :
    CompiledAlike (canonicalExpression profile relation tableAlias (path.head?.getD "undefined") path.tail)
      (canonicalExpression profile relation tableAlias (path.head?.getD "undefined") (outlinePath path).tail) := by
  unfold canonicalExpression
  split
  · refine contractPredicateExpression_alike profile tableAlias _ fun htemplate => ?_
    cases path with
    | nil => rfl
    | cons field rest =>
        have hfield : field = "templateId" := htemplate
        rw [outlinePath, if_pos hfield]
  · refine alike_lift_bind fun physical => ?_
    simp only [tail_outlinePath_eq_nil]
    exact alike_ite (alike_pure (.refl _)) (jsonText_alike _ _ _)

theorem scalarCondition_alike (operator : ScalarOperator) {expression expression' : Sql} (column : Sql)
    {value value' : QueryValue} (hexpression : SameSkeleton expression expression')
    (hempty : isEmptyArray value = isEmptyArray value') :
    CompiledAlike (scalarCondition operator expression column value)
      (scalarCondition operator expression' column value') := by
  have hcompared (text : {text : SqlCode // between text = true}) :
      CompiledAlike (do return .join text.1 [expression, ← add (.value value)] text.2)
        (do return .join text.1 [expression', ← add (.value value')] text.2) :=
    alike_bind (add_alike _ _) fun _ _ hadd => alike_pure (.join text.2 (.cons hexpression (.cons hadd .nil)))
  cases operator with
  | is | isNot => exact alike_pure (.template rfl rfl (.cons ⟨rfl, hexpression⟩ .nil))
  | in_ =>
      simp only [scalarCondition, hempty]
      refine alike_ite (alike_pure (.refl _)) (alike_bind (add_alike _ _) fun _ _ hadd => alike_pure ?_)
      exact .template rfl rfl (.cons ⟨rfl, hexpression⟩ (.cons ⟨rfl, hadd⟩ .nil))
  | has =>
      exact alike_bind (add_alike _ _) fun _ _ hadd =>
        alike_pure (.template rfl rfl (.cons ⟨rfl, hadd⟩ (.cons ⟨rfl, .refl _⟩ .nil)))
  | equals | lt | lte | gt | gte | like | ilike => exact hcompared _

theorem compileScalar_alike (relation : QueryRelation) (tableAlias : SqlAlias) (path : List String)
    (operator : ScalarOperator) (value : QueryValue) :
    CompiledAlike (compileScalar profile relation tableAlias path operator value)
      (compileScalar profile relation tableAlias (outlinePath path) operator (outlineValue value)) := by
  unfold compileScalar
  simp only [head_outlinePath]
  split
  · cases value with
    | bool flag => cases flag <;> exact alike_pure (.refl _)
    | _ => exact alike_pure (.refl _)
  · split
    · exact alike_bind (add_alike _ _) fun _ _ hadd =>
        alike_pure (.template rfl rfl (.cons ⟨rfl, hadd⟩ (.cons ⟨rfl, .refl _⟩ .nil)))
    · refine alike_lift_bind fun column => alike_bind (canonicalExpression_alike profile relation tableAlias path) ?_
      intro expression expression' hexpression
      split
      · exact scalarCondition_alike operator _ (.refl _) (by simp)
      · exact scalarCondition_alike operator _ hexpression (by simp)

mutual

theorem compileCanonicalPredicate_alike (relation : QueryRelation) (tableAlias : SqlAlias) :
    ∀ predicate : QueryPredicate, CompiledAlike (compileCanonicalPredicate profile relation tableAlias predicate)
      (compileCanonicalPredicate profile relation tableAlias (outlinePredicate predicate))
  | .and [] => alike_pure (.refl _)
  | .or [] => alike_pure (.refl _)
  | .and (child :: rest) =>
      alike_bind (compileCanonicalPredicates_alike relation tableAlias (child :: rest)) fun _ _ hchildren =>
        alike_pure (.template rfl rfl (.cons ⟨rfl, .join rfl hchildren⟩ .nil))
  | .or (child :: rest) =>
      alike_bind (compileCanonicalPredicates_alike relation tableAlias (child :: rest)) fun _ _ hchildren =>
        alike_pure (.template rfl rfl (.cons ⟨rfl, .join rfl hchildren⟩ .nil))
  | .not child =>
      alike_bind (compileCanonicalPredicate_alike relation tableAlias child) fun _ _ hchild =>
        alike_pure (.template rfl rfl (.cons ⟨rfl, hchild⟩ .nil))
  | .relation edge quantifier predicate => by
      refine alike_lift_bind fun join => alike_bind (compileCanonicalPredicate_alike edge.target _ predicate) ?_
      intro condition condition' hcondition
      have hrefl (part : SqlCode) (sql : Sql) : part = part ∧ SameSkeleton sql sql := ⟨rfl, .refl _⟩
      cases quantifier with
      | every =>
          exact alike_pure (.template rfl rfl
            (.cons (hrefl _ _) (.cons (hrefl _ _) (.cons (hrefl _ _) (.cons ⟨rfl, hcondition⟩ .nil)))))
      | one | some | none =>
          exact alike_pure (.template rfl rfl (.cons ⟨rfl, .template rfl rfl
            (.cons (hrefl _ _) (.cons (hrefl _ _) (.cons (hrefl _ _) (.cons ⟨rfl, hcondition⟩ .nil))))⟩ .nil))
  | .scalar path operator value => compileScalar_alike profile relation tableAlias path operator value

theorem compileCanonicalPredicates_alike (relation : QueryRelation) (tableAlias : SqlAlias) :
    ∀ predicates : List QueryPredicate, Alike SameCount (List.Forall₂ SameSkeleton)
      (compileCanonicalPredicates profile relation tableAlias predicates)
      (compileCanonicalPredicates profile relation tableAlias (outlinePredicates predicates))
  | [] => alike_pure .nil
  | child :: rest =>
      alike_bind (compileCanonicalPredicate_alike relation tableAlias child) fun _ _ hchild =>
        alike_bind (compileCanonicalPredicates_alike relation tableAlias rest) fun _ _ hrest =>
          alike_pure (.cons hchild hrest)

end

/-! ## Includes -/

abbrev CompiledAllAlike (x y : Compile (List Sql)) : Prop := Alike SameCount (List.Forall₂ SameSkeleton) x y

theorem named_alike {expression expression' name name' : Sql} (h : SameSkeleton expression expression')
    (hname : SameSkeleton name name') : SameSkeleton (named expression name) (named expression' name') :=
  .template rfl rfl (.cons ⟨rfl, h⟩ (.cons ⟨rfl, hname⟩ .nil))

/-- Two names that callers have given. -/
theorem givenIdentifier_alike (name name' : String) : SameSkeleton (.givenIdentifier name) (.givenIdentifier name') :=
  Eq.refl _

theorem jsonScalar_alike {text text' : Sql} (h : SameSkeleton text text') (as : JsonScalarType) :
    SameSkeleton (jsonScalar text as) (jsonScalar text' as) := by
  cases as with
  | text => exact h
  | numeric | boolean | timestamp => exact .template rfl rfl (.cons ⟨rfl, h⟩ .nil)

theorem compileIncludedJson_alike (target : QueryRelation) (tableAlias : SqlAlias) (json : List NormalizedJsonSelection) :
    CompiledAllAlike (compileIncludedJson profile target tableAlias json)
      (compileIncludedJson profile target tableAlias (json.map outlineProjection)) := by
  induction json with
  | nil => exact alike_pure .nil
  | cons projection rest ih =>
      refine alike_lift_bind fun base => alike_bind (jsonText_alike base _ _) fun text text' htext => ?_
      refine alike_bind ih fun _ _ hrest => alike_pure ?_
      exact .cons (Eq.refl _) (.cons (jsonScalar_alike htext _) hrest)

theorem compileFilter_alike (relation : QueryRelation) (tableAlias : SqlAlias) (predicate : Option QueryPredicate) :
    CompiledAlike (compileFilter profile relation tableAlias predicate)
      (compileFilter profile relation tableAlias (predicate.map outlinePredicate)) := by
  cases predicate with
  | none => exact alike_pure (.refl _)
  | some predicate => exact compileCanonicalPredicate_alike profile relation tableAlias predicate

theorem includedLimit_alike (cardinality : Cardinality) (take : Option Nat) :
    CompiledAllAlike (includedLimit cardinality take) (includedLimit cardinality take) := by
  cases cardinality with
  | one => exact alike_pure .nil
  | many =>
      exact alike_bind (add_alike _ _) fun _ _ hadd => alike_pure (.cons (.template rfl rfl (.cons ⟨rfl, hadd⟩ .nil)) .nil)

theorem includedOffset_alike (cardinality : Cardinality) (skip : Nat) :
    CompiledAllAlike (includedOffset cardinality skip) (includedOffset cardinality skip) := by
  cases cardinality with
  | one => exact alike_pure .nil
  | many =>
      refine alike_ite (alike_pure .nil) (alike_bind (add_alike _ _) fun _ _ hadd => alike_pure ?_)
      exact .cons (.template rfl rfl (.cons ⟨rfl, hadd⟩ .nil)) .nil

theorem includedExpression_alike (edge : QueryEdge) {object object' condition condition' : Sql} {tail tail' : List Sql}
    (hobject : SameSkeleton object object') (hcondition : SameSkeleton condition condition')
    (htail : List.Forall₂ SameSkeleton tail tail') :
    SameSkeleton (includedExpression profile edge object condition tail)
      (includedExpression profile edge object' condition' tail') := by
  have hrefl (part : SqlCode) (sql : Sql) : part = part ∧ SameSkeleton sql sql := ⟨rfl, .refl _⟩
  unfold includedExpression
  cases edge.cardinality with
  | one =>
      exact .template rfl rfl (.cons ⟨rfl, hobject⟩ (.cons (hrefl _ _) (.cons (hrefl _ _) (.cons ⟨rfl, hcondition⟩ .nil))))
  | many =>
      exact .template rfl rfl (.cons (hrefl _ _) (.cons ⟨rfl, hobject⟩ (.cons (hrefl _ _) (.cons (hrefl _ _)
        (.cons ⟨rfl, .join rfl (.cons hcondition htail)⟩ (.cons (hrefl _ _) .nil))))))

/-- Includes are alike when their keys are the same and their expressions are alike. -/
def SameInclude (a b : CompiledPqsInclude) : Prop := a.key = b.key ∧ SameSkeleton a.expression b.expression

theorem selection_alike {includes includes' : List CompiledPqsInclude} (h : List.Forall₂ SameInclude includes includes') :
    List.Forall₂ SameSkeleton (includes.map (·.selection)) (includes'.map (·.selection)) := by
  rw [List.forall₂_map_left_iff, List.forall₂_map_right_iff]
  refine h.imp fun a b hab => ?_
  rw [CompiledPqsInclude.selection, CompiledPqsInclude.selection, hab.1]
  exact named_alike hab.2 (.refl _)

theorem nestedFields_alike {includes includes' : List CompiledPqsInclude}
    (h : List.Forall₂ SameInclude includes includes') :
    List.Forall₂ SameSkeleton (includes.flatMap fun selection => [Sql.string selection.key, selection.expression])
      (includes'.flatMap fun selection => [Sql.string selection.key, selection.expression]) := by
  induction h with
  | nil => exact .nil
  | cons hfirst _ ih => exact .cons (hfirst.1 ▸ .refl _) (.cons hfirst.2 ih)

/-- The fields of a selection are not outlined, and its projections are. -/
theorem outlined_select (select : Option NormalizedSelection) :
    (select.map outlineSelection).map (·.fields) = select.map (·.fields) ∧
      ((select.map outlineSelection).map (·.json)).getD [] = ((select.map (·.json)).getD []).map outlineProjection := by
  cases select <;> exact ⟨rfl, rfl⟩

mutual

theorem compileCanonicalPhysicalInclude_alike (source : QueryRelation) (parentAlias : SqlAlias) :
    ∀ include_ : NormalizedInclude, Alike SameCount SameInclude
      (compileCanonicalPhysicalInclude profile source parentAlias include_)
      (compileCanonicalPhysicalInclude profile source parentAlias (outlineInclude include_))
  | ⟨edge, predicate, select, includes, orderBy, skip, take⟩ => by
      rw [outlineInclude, compileCanonicalPhysicalInclude, compileCanonicalPhysicalInclude]
      refine alike_ite (fun _ _ _ => rfl) ?_
      dsimp only
      have hfields : compileCanonicalIncludedFields profile edge.target (select.map outlineSelection)
        (.named (edgeAlias edge))
          = compileCanonicalIncludedFields profile edge.target select (.named (edgeAlias edge)) := by
        unfold compileCanonicalIncludedFields
        rw [(outlined_select select).1]
      rw [hfields, (outlined_select select).2]
      refine alike_lift_bind fun fields => ?_
      refine alike_bind (compileIncludedJson_alike profile edge.target _ _) fun json json' hjson => ?_
      refine alike_bind (compileCanonicalPhysicalIncludes_alike edge.target _ includes) fun nested nested' hnested => ?_
      refine alike_bind (compileFilter_alike profile edge.target _ predicate) fun filter filter' hfilter => ?_
      refine alike_lift_bind fun join => ?_
      refine alike_bind (includedLimit_alike _ _) fun limit limit' hlimit => ?_
      refine alike_bind (includedOffset_alike _ _) fun offset offset' hoffset => alike_pure ⟨rfl, ?_⟩
      apply includedExpression_alike
      · have hall := List.rel_append (List.rel_append (SameSkeleton.refl_list fields) hjson) (nestedFields_alike hnested)
        exact .template rfl rfl (.cons ⟨rfl, .join rfl hall⟩ .nil)
      · exact .template rfl rfl (.cons ⟨rfl, .refl _⟩ (.cons ⟨rfl, hfilter⟩ .nil))
      · exact List.rel_append (List.rel_append (SameSkeleton.refl_list _) hlimit) hoffset

theorem compileCanonicalPhysicalIncludes_alike (source : QueryRelation) (parentAlias : SqlAlias) :
    ∀ includes : List NormalizedInclude, Alike SameCount (List.Forall₂ SameInclude)
      (compileCanonicalPhysicalIncludes profile source parentAlias includes)
      (compileCanonicalPhysicalIncludes profile source parentAlias (outlineIncludes includes))
  | [] => alike_pure .nil
  | include_ :: rest =>
      alike_bind (compileCanonicalPhysicalInclude_alike source parentAlias include_) fun _ _ hfirst =>
        alike_bind (compileCanonicalPhysicalIncludes_alike source parentAlias rest) fun _ _ hrest =>
          alike_pure (.cons hfirst hrest)

end

/-! ## Contracts -/

theorem contractFilter_alike (predicate : Option QueryPredicate) :
    CompiledAllAlike (contractFilter profile predicate) (contractFilter profile (predicate.map outlinePredicate)) := by
  cases predicate with
  | none => exact alike_pure .nil
  | some predicate =>
      exact alike_bind (compileCanonicalPredicate_alike profile .contracts .contractRow predicate) fun _ _ hpredicate =>
        alike_pure (.cons hpredicate .nil)

theorem witnessCondition_alike (parties : Option (List String)) :
    CompiledAllAlike (witnessCondition parties) (witnessCondition (parties.map outlineStrings)) := by
  cases parties with
  | none => exact alike_pure .nil
  | some parties =>
      exact alike_bind (add_alike _ _) fun _ _ hadd =>
        alike_pure (.cons (.template rfl rfl (.cons ⟨rfl, hadd⟩ .nil)) .nil)

theorem contractConditions_alike (predicate : Option QueryPredicate) (parties : Option (List String)) :
    CompiledAllAlike (contractConditions profile predicate parties)
      (contractConditions profile (predicate.map outlinePredicate) (parties.map outlineStrings)) :=
  alike_bind (contractFilter_alike profile predicate) fun _ _ hfilter =>
    alike_bind (witnessCondition_alike parties) fun _ _ hwitnesses => alike_pure (List.rel_append hfilter hwitnesses)

theorem whereClause_alike {conditions conditions' : List Sql} (h : List.Forall₂ SameSkeleton conditions conditions') :
    List.Forall₂ SameSkeleton (whereClause conditions) (whereClause conditions') := by
  cases h with
  | nil => exact .nil
  | cons hfirst hrest => exact .cons (.template rfl rfl (.cons ⟨rfl, .join rfl (.cons hfirst hrest)⟩ .nil)) .nil

theorem compileContractJson_alike (json : List NormalizedJsonSelection) :
    CompiledAllAlike (compileContractJson json) (compileContractJson (json.map outlineProjection)) := by
  induction json with
  | nil => exact alike_pure .nil
  | cons projection rest ih =>
      refine alike_bind (jsonText_alike _ _ _) fun text text' htext => alike_bind ih fun _ _ hrest => alike_pure ?_
      exact .cons (named_alike (jsonScalar_alike htext _) (givenIdentifier_alike _ _)) hrest

theorem countClause_alike (keyword : SqlCode) (hkeyword : endsApart keyword.chars = true) (count : Option Nat) :
    CompiledAlike (countClause keyword hkeyword count) (countClause keyword hkeyword count) := by
  cases count with
  | none => exact alike_pure (.refl _)
  | some count => exact alike_bind (add_alike _ _) fun _ _ hadd => alike_pure (.template rfl rfl (.cons ⟨rfl, hadd⟩ .nil))

/-- A list of clauses behind a fragment that does not depend on the query. -/
theorem clauses_alike (first : Sql) {rest rest' : List Sql} (h : List.Forall₂ SameSkeleton rest rest') :
    SameSkeleton (.blanks (first :: rest)) (.blanks (first :: rest')) := .join rfl (.cons (.refl _) h)

theorem compileContractFindMany_alike (query : NormalizedFindManyQuery) :
    CompiledAlike (compileContractFindMany profile query) (compileContractFindMany profile { query with
      parties := query.parties.map outlineStrings
      predicate := query.predicate.map outlinePredicate
      select := query.select.map outlineSelection
      includes := outlineIncludes query.includes }) := by
  unfold compileContractFindMany
  refine alike_ite (fun _ _ _ => rfl) ?_
  dsimp only
  rw [(outlined_select query.select).2]
  refine alike_bind (contractConditions_alike profile _ _) fun conditions conditions' hconditions => ?_
  refine alike_bind (countClause_alike _ _ _) fun limit limit' hlimit => ?_
  refine alike_bind (countClause_alike _ _ _) fun offset offset' hoffset => ?_
  refine alike_bind (compileCanonicalPhysicalIncludes_alike profile .contracts .contractRow query.includes) ?_
  intro included included' hincluded
  refine alike_bind (compileContractJson_alike _) fun json json' hjson => alike_pure ?_
  have hcolumns (columns : List Sql) :=
    List.rel_append (List.rel_append (SameSkeleton.refl_list columns) (selection_alike hincluded)) hjson
  have hrefl (part : SqlCode) (sql : Sql) : part = part ∧ SameSkeleton sql sql := ⟨rfl, .refl _⟩
  exact .template rfl rfl (.cons ⟨rfl, .join rfl (hcolumns _)⟩ (.cons (hrefl _ _) (.cons (hrefl _ _) (.cons (hrefl _ _)
    (.cons (hrefl _ _) (.cons (hrefl _ _) (.cons ⟨rfl, .join rfl (whereClause_alike hconditions)⟩ (.cons (hrefl _ _)
    (.cons ⟨rfl, hlimit⟩ (.cons ⟨rfl, hoffset⟩ .nil))))))))))

theorem compileContractCount_alike (query : NormalizedCountQuery) :
    CompiledAlike (compileContractCount profile query) (compileContractCount profile { query with
      parties := query.parties.map outlineStrings
      predicate := query.predicate.map outlinePredicate }) := by
  unfold compileContractCount
  refine alike_ite (fun _ _ _ => rfl) ?_
  exact alike_bind (contractConditions_alike profile _ _) fun _ _ hconditions =>
    alike_pure (clauses_alike _ (whereClause_alike hconditions))

theorem compileContractAggregate_alike (query : NormalizedAggregateQuery) :
    CompiledAlike (compileContractAggregate profile query)
      (compileContractAggregate profile { query with predicate := query.predicate.map outlinePredicate }) := by
  unfold compileContractAggregate
  refine alike_ite (fun _ _ _ => rfl) (alike_lift_bind fun requested => alike_ite (fun _ _ _ => rfl) ?_)
  exact alike_bind (contractConditions_alike profile _ none) fun _ _ hconditions =>
    alike_pure (clauses_alike _ (whereClause_alike hconditions))

/-! ## Groups -/

def SameGroupKey (a b : CompiledGroupKey) : Prop :=
  SameSkeleton a.expression b.expression ∧ SameSkeleton a.selection b.selection

theorem jsonGroupScalar_alike {text text' : Sql} (h : SameSkeleton text text') (as : JsonScalarType) :
    SameSkeleton (jsonGroupScalar text as) (jsonGroupScalar text' as) := by
  cases as with
  | text => exact h
  | numeric | boolean | timestamp => exact .template rfl rfl (.cons ⟨rfl, h⟩ .nil)

theorem groupByClause_alike {keys keys' : List CompiledGroupKey} (h : List.Forall₂ SameGroupKey keys keys') :
    SameSkeleton (groupByClause keys) (groupByClause keys') := by
  have hexpressions : List.Forall₂ SameSkeleton (keys.map (·.expression)) (keys'.map (·.expression)) := by
    rw [List.forall₂_map_left_iff, List.forall₂_map_right_iff]
    exact h.imp fun _ _ hkey => hkey.1
  exact .template rfl rfl (.cons ⟨rfl, .join rfl hexpressions⟩ .nil)

theorem groupSelections_alike {keys keys' : List CompiledGroupKey} (h : List.Forall₂ SameGroupKey keys keys') :
    List.Forall₂ SameSkeleton (keys.map (·.selection)) (keys'.map (·.selection)) := by
  rw [List.forall₂_map_left_iff, List.forall₂_map_right_iff]
  exact h.imp fun _ _ hkey => hkey.2

theorem isWitnessesKey_outline (key : NormalizedGroupKey) : isWitnessesKey (outlineGroupKey key) = isWitnessesKey key := by
  cases key <;> rfl

theorem compileContractGroupKey_alike (key : NormalizedGroupKey) :
    Alike SameCount SameGroupKey (compileContractGroupKey profile key)
      (compileContractGroupKey profile (outlineGroupKey key)) := by
  cases key with
  | field path =>
      unfold compileContractGroupKey outlineGroupKey
      refine alike_ite (alike_pure ⟨.refl _, .refl _⟩) ?_
      split
      · exact alike_throw _
      · exact alike_pure ⟨.refl _, .refl _⟩
  | json field name path as =>
      refine alike_ite (fun _ _ _ => rfl) (alike_bind (jsonText_alike _ _ _) fun base base' hbase => alike_pure ?_)
      exact ⟨jsonGroupScalar_alike hbase as, named_alike (jsonGroupScalar_alike hbase as) (givenIdentifier_alike _ _)⟩
  | bucket field bucket => exact alike_throw _
  | relatedBucket edge field bucket => exact alike_throw _

theorem compileGroupKeys_alike {compileKey : NormalizedGroupKey → Compile CompiledGroupKey}
    (h : ∀ key, Alike SameCount SameGroupKey (compileKey key) (compileKey (outlineGroupKey key)))
      (keys : List NormalizedGroupKey) :
    Alike SameCount (List.Forall₂ SameGroupKey) (compileGroupKeys compileKey keys)
      (compileGroupKeys compileKey (keys.map outlineGroupKey)) := by
  induction keys with
  | nil => exact alike_pure .nil
  | cons key rest ih =>
      exact alike_bind (h key) fun _ _ hkey => alike_bind ih fun _ _ hrest => alike_pure (.cons hkey hrest)

theorem nothingGrouped_outline (query : NormalizedGroupByQuery) (predicate : Option QueryPredicate) :
    nothingGrouped { query with predicate, by_ := query.by_.map outlineGroupKey } = nothingGrouped query := by
  simp [nothingGrouped, List.isEmpty_map]

theorem compileContractGroupBy_alike (query : NormalizedGroupByQuery) :
    CompiledAlike (compileContractGroupBy profile query) (compileContractGroupBy profile { query with
      predicate := query.predicate.map outlinePredicate
      by_ := query.by_.map outlineGroupKey }) := by
  unfold compileContractGroupBy
  rw [nothingGrouped_outline]
  refine alike_ite (fun _ _ _ => rfl) (alike_ite (fun _ _ _ => rfl) ?_)
  refine alike_bind (contractConditions_alike profile _ none) fun conditions conditions' hconditions => ?_
  refine alike_bind (compileGroupKeys_alike (compileContractGroupKey_alike profile) _) fun keys keys' hkeys => alike_pure ?_
  have hwitnesses : (query.by_.map outlineGroupKey).any isWitnessesKey = query.by_.any isWitnessesKey := by
    simp only [List.any_map, Function.comp_def, isWitnessesKey_outline]
  simp only [hwitnesses]
  refine .join rfl (.cons (.template rfl rfl (.cons ⟨rfl, .join rfl ?_⟩ (.cons ⟨rfl, .refl _⟩ .nil))) ?_)
  · exact List.rel_append (List.rel_append (groupSelections_alike hkeys) (SameSkeleton.refl_list _))
      (SameSkeleton.refl_list _)
  · exact List.rel_append (List.rel_append (SameSkeleton.refl_list _) (whereClause_alike hconditions))
      (.cons (groupByClause_alike hkeys) .nil)

/-! ## The other relations -/

theorem selectedCanonicalFields_outline (relation : QueryRelation) (select : Option NormalizedSelection) :
    selectedCanonicalFields profile relation (select.map outlineSelection)
      = selectedCanonicalFields profile relation select := by
  unfold selectedCanonicalFields
  rw [(outlined_select select).1, (outlined_select select).2, List.isEmpty_map]

theorem compileCanonicalJsonSelections_alike (relation : QueryRelation) (json : List NormalizedJsonSelection) :
    CompiledAllAlike (compileCanonicalJsonSelections profile relation json)
      (compileCanonicalJsonSelections profile relation (json.map outlineProjection)) := by
  induction json with
  | nil => exact alike_pure .nil
  | cons projection rest ih =>
      refine alike_ite (fun _ _ _ => rfl) (alike_lift_bind fun base => ?_)
      refine alike_bind (jsonText_alike base _ _) fun text text' htext => alike_bind ih fun _ _ hrest => alike_pure ?_
      exact .cons (named_alike (jsonScalar_alike htext _) (givenIdentifier_alike _ _)) hrest

theorem relationConditions_alike (relation : QueryRelation) (tableAlias : SqlAlias) (predicate : Option QueryPredicate) :
    CompiledAllAlike (relationConditions profile relation tableAlias predicate)
      (relationConditions profile relation tableAlias (predicate.map outlinePredicate)) := by
  cases predicate with
  | none => exact alike_pure .nil
  | some predicate =>
      exact alike_bind (compileCanonicalPredicate_alike profile relation tableAlias predicate) fun _ _ hpredicate =>
        alike_pure (.cons (.template rfl rfl (.cons ⟨rfl, hpredicate⟩ .nil)) .nil)

theorem limitClauses_alike (take : Option Nat) : CompiledAllAlike (limitClauses take) (limitClauses take) :=
  alike_ite (alike_pure .nil) (alike_bind (countClause_alike _ _ _) fun _ _ hclause => alike_pure (.cons hclause .nil))

theorem offsetClauses_alike (skip : Nat) : CompiledAllAlike (offsetClauses skip) (offsetClauses skip) :=
  alike_ite (alike_pure .nil) (alike_bind (countClause_alike _ _ _) fun _ _ hclause => alike_pure (.cons hclause .nil))

theorem statement_alike (source : RootSource) {clauses clauses' : List Sql}
    (h : List.Forall₂ SameSkeleton clauses clauses') :
    SameSkeleton (statement source clauses) (statement source clauses') :=
  .join rfl (List.rel_append (SameSkeleton.refl_list _) h)

theorem compilePqsRelationFindMany_alike (query : NormalizedFindManyQuery) :
    CompiledAlike (compilePqsRelationFindMany profile query) (compilePqsRelationFindMany profile { query with
      parties := query.parties.map outlineStrings
      predicate := query.predicate.map outlinePredicate
      select := query.select.map outlineSelection
      includes := outlineIncludes query.includes }) := by
  unfold compilePqsRelationFindMany
  rw [selectedCanonicalFields_outline]
  dsimp only
  rw [(outlined_select query.select).2]
  refine alike_lift_bind fun source => alike_lift_bind fun fields => ?_
  refine alike_bind (relationConditions_alike profile _ _ _) fun conditions conditions' hconditions => ?_
  refine alike_lift_bind fun orderBy => ?_
  refine alike_bind (limitClauses_alike _) fun limit limit' hlimit => ?_
  refine alike_bind (offsetClauses_alike _) fun offset offset' hoffset => ?_
  refine alike_bind (compileCanonicalPhysicalIncludes_alike profile _ _ _) fun included included' hincluded => ?_
  refine alike_bind (compileCanonicalJsonSelections_alike profile _ _) fun json json' hjson => alike_pure ?_
  have hselected := List.rel_append (List.rel_append (SameSkeleton.refl_list fields) hjson) (selection_alike hincluded)
  have htail :=
    List.rel_append (List.rel_append (List.rel_append hconditions (SameSkeleton.refl_list orderBy)) hlimit) hoffset
  exact statement_alike source (.cons (.template rfl rfl (.cons ⟨rfl, .join rfl hselected⟩ .nil)) (.cons (.refl _) htail))

theorem compilePqsRelationCount_alike (query : NormalizedCountQuery) :
    CompiledAlike (compilePqsRelationCount profile query) (compilePqsRelationCount profile { query with
      parties := query.parties.map outlineStrings
      predicate := query.predicate.map outlinePredicate }) := by
  unfold compilePqsRelationCount
  refine alike_lift_bind fun source => ?_
  exact alike_bind (relationConditions_alike profile _ _ _) fun _ _ hconditions =>
    alike_pure (statement_alike source (.cons (.refl _) (.cons (.refl _) hconditions)))

theorem compilePqsRelationAggregate_alike (query : NormalizedAggregateQuery) :
    CompiledAlike (compilePqsRelationAggregate profile query)
      (compilePqsRelationAggregate profile { query with predicate := query.predicate.map outlinePredicate }) := by
  unfold compilePqsRelationAggregate
  refine alike_lift_bind fun source => alike_lift_bind fun selected => alike_ite (fun _ _ _ => rfl) ?_
  exact alike_bind (relationConditions_alike profile _ _ _) fun _ _ hconditions =>
    alike_pure (statement_alike source (.cons (.refl _) (.cons (.refl _) hconditions)))

def SameRelationKey (a b : RelationGroupKey) : Prop := a.join = b.join ∧ SameGroupKey a.key b.key

theorem compileRelationGroupKey_alike (relation : QueryRelation) (root : Sql) (key : NormalizedGroupKey) :
    Alike SameCount SameRelationKey (compileRelationGroupKey profile relation root key)
      (compileRelationGroupKey profile relation root (outlineGroupKey key)) := by
  cases key with
  | field path =>
      refine alike_lift_bind fun column => alike_ite (alike_pure ⟨rfl, .refl _, .refl _⟩) ?_
      exact alike_lift_bind fun expression => alike_pure ⟨rfl, .refl _, .refl _⟩
  | json field name path as =>
      refine alike_lift_bind fun base => alike_bind (jsonText_alike base _ _) fun text text' htext => alike_pure ⟨rfl, ?_⟩
      exact ⟨jsonGroupScalar_alike htext as, named_alike (jsonGroupScalar_alike htext as) (givenIdentifier_alike _ _)⟩
  | bucket field bucket => exact alike_lift_bind fun expression => alike_pure ⟨rfl, .refl _, .refl _⟩
  | relatedBucket edge field bucket =>
      exact alike_ite (fun _ _ _ => rfl) (alike_lift_bind fun expression => alike_pure ⟨rfl, .refl _, .refl _⟩)

theorem compileRelationGroupKeys_alike (relation : QueryRelation) (root : Sql) (keys : List NormalizedGroupKey) :
    Alike SameCount (List.Forall₂ SameRelationKey) (compileRelationGroupKeys profile relation root keys)
      (compileRelationGroupKeys profile relation root (keys.map outlineGroupKey)) := by
  induction keys with
  | nil => exact alike_pure .nil
  | cons key rest ih =>
      exact alike_bind (compileRelationGroupKey_alike profile relation root key) fun _ _ hkey =>
        alike_bind ih fun _ _ hrest => alike_pure (.cons hkey hrest)

theorem compilePqsRelationGroupBy_alike (query : NormalizedGroupByQuery) :
    CompiledAlike (compilePqsRelationGroupBy profile query) (compilePqsRelationGroupBy profile { query with
      predicate := query.predicate.map outlinePredicate
      by_ := query.by_.map outlineGroupKey }) := by
  unfold compilePqsRelationGroupBy
  rw [nothingGrouped_outline]
  refine alike_ite (fun _ _ _ => rfl) (alike_lift_bind fun source => ?_)
  refine alike_bind (relationConditions_alike profile _ _ _) fun conditions conditions' hconditions => ?_
  refine alike_bind (compileRelationGroupKeys_alike profile _ _ _) fun keys keys' hkeys => ?_
  refine alike_lift_bind fun aggregates => alike_pure ?_
  have hgroupKeys : List.Forall₂ SameGroupKey (keys.map (·.key)) (keys'.map (·.key)) := by
    rw [List.forall₂_map_left_iff, List.forall₂_map_right_iff]
    exact hkeys.imp fun _ _ hkey => hkey.2
  have hjoins : keys.flatMap (·.join) = keys'.flatMap (·.join) := by
    clear hgroupKeys
    induction hkeys with
    | nil => rfl
    | cons hkey _ ih => rw [List.flatMap_cons, List.flatMap_cons, hkey.1, ih]
  have hselected := List.rel_append (groupSelections_alike hgroupKeys) (SameSkeleton.refl_list aggregates)
  simp only [List.map_map, Function.comp_def] at hselected
  rw [hjoins]
  refine statement_alike source (.cons (.template rfl rfl (.cons ⟨rfl, .join rfl hselected⟩ .nil)) (.cons (.refl _) ?_))
  exact List.rel_append (List.rel_append (SameSkeleton.refl_list _) hconditions)
    (.cons (groupByClause_alike hgroupKeys) .nil)

/-! ## Queries of any kind -/

theorem normalizedUnique_outline (query : NormalizedFindUniqueQuery) :
    normalizedUniqueAsFindMany { query with
        predicate := outlinePredicate query.predicate
        select := query.select.map outlineSelection
        includes := outlineIncludes query.includes }
      = { normalizedUniqueAsFindMany query with
          parties := (normalizedUniqueAsFindMany query).parties.map outlineStrings
          predicate := (normalizedUniqueAsFindMany query).predicate.map outlinePredicate
          select := (normalizedUniqueAsFindMany query).select.map outlineSelection
          includes := outlineIncludes (normalizedUniqueAsFindMany query).includes } := rfl

theorem compileQuery_alike (query : NormalizedQuery) :
    CompiledAlike (compileQuery profile query) (compileQuery profile (outline query)) := by
  cases query with
  | findMany query =>
      exact alike_ite (compileContractFindMany_alike profile query) (compilePqsRelationFindMany_alike profile query)
  | findUnique query =>
      exact alike_ite (compileContractFindMany_alike profile (normalizedUniqueAsFindMany query))
        (compilePqsRelationFindMany_alike profile (normalizedUniqueAsFindMany query))
  | count query => exact alike_ite (compileContractCount_alike profile query) (compilePqsRelationCount_alike profile query)
  | aggregate query =>
      exact alike_ite (compileContractAggregate_alike profile query) (compilePqsRelationAggregate_alike profile query)
  | groupBy query =>
      exact alike_ite (compileContractGroupBy_alike profile query) (compilePqsRelationGroupBy_alike profile query)

/-- What can be seen of an outcome without the strings that callers have given: the error, or the skeleton of the text with
the number of values. -/
def outcome (result : Except String CompiledPqsQuery) : Except String (List (Option (List Char)) × Nat) :=
  result.map fun statement => (statement.text.skeleton, statement.values.length)

theorem outcome_outline (query : NormalizedQuery) :
    outcome (compiled (compileQuery profile query)) = outcome (compiled (compileQuery profile (outline query))) := by
  have halike := compileQuery_alike profile query [] [] rfl
  rw [compiled, compiled]
  cases hleft : compileQuery profile query [] with
  | error e =>
      cases hright : compileQuery profile (outline query) [] with
      | error e' =>
          rw [hleft, hright] at halike
          rw [show e = e' from halike]
      | ok q =>
          rw [hleft, hright] at halike
          exact halike.elim
  | ok p =>
      cases hright : compileQuery profile (outline query) [] with
      | error e' =>
          rw [hleft, hright] at halike
          exact halike.elim
      | ok q =>
          rw [hleft, hright] at halike
          exact congrArg Except.ok (Prod.ext halike.1 halike.2)

/-- The text is the skeleton with a quoted string in every gap. -/
inductive Filled : List (Option (List Char)) → List Char → Prop
  | nil : Filled [] []
  | fixed {rest : List (Option (List Char))} {text : List Char} (own : List Char) (hrest : Filled rest text) :
      Filled (some own :: rest) (own ++ text)
  | identifier {rest : List (Option (List Char))} {text : List Char} (value : String) (hrest : Filled rest text) :
      Filled (none :: rest) ((quotePqsIdentifier value).toList ++ text)
  | string {rest : List (Option (List Char))} {text : List Char} (value : String) (hrest : Filled rest text) :
      Filled (none :: rest) ((quotePqsString value).toList ++ text)

theorem filled_skeleton (sql : Sql) : Filled sql.skeleton sql.text.toList := by
  rw [Sql.text, String.toList_ofList, Sql.skeleton]
  induction sql.pieces with
  | nil => exact .nil
  | cons piece rest ih =>
      cases piece with
      | givenIdentifier value => exact .identifier value ih
      | givenString value => exact .string value ih
      | code | placeholder | identifier | string => exact .fixed _ ih

/-- Two outcomes are the same error, or statements with as many values whose texts are one skeleton, filled with strings that
are read as one literal each. -/
def SameUpToGiven : Except String CompiledPqsQuery → Except String CompiledPqsQuery → Prop
  | .ok statement, .ok statement' =>
      statement.values.length = statement'.values.length ∧ ∃ skeleton,
        (Filled skeleton statement.text.text.toList ∧ sqlTokens 0 statement.text.text.toList = skeletonTokens skeleton) ∧
        Filled skeleton statement'.text.text.toList ∧ sqlTokens 0 statement'.text.text.toList = skeletonTokens skeleton
  | .error error, .error error' => error = error'
  | _, _ => False

/-- Queries that differ only in strings that callers have given compile to statements that differ only within literals. -/
theorem given_strings_stay_quoted (query query' : NormalizedQuery) (h : outline query = outline query') :
    SameUpToGiven (compiled (compileQuery profile query)) (compiled (compileQuery profile query')) := by
  have houtcome : outcome (compiled (compileQuery profile query)) = outcome (compiled (compileQuery profile query')) := by
    rw [outcome_outline, h, ← outcome_outline]
  cases hleft : compiled (compileQuery profile query) with
  | error e =>
      cases hright : compiled (compileQuery profile query') with
      | error e' =>
          rw [hleft, hright] at houtcome
          exact Except.error.inj houtcome
      | ok statement' =>
          rw [hleft, hright] at houtcome
          cases houtcome
  | ok statement =>
      cases hright : compiled (compileQuery profile query') with
      | error e' =>
          rw [hleft, hright] at houtcome
          cases houtcome
      | ok statement' =>
          rw [hleft, hright] at houtcome
          have hpair := Prod.ext_iff.mp (Except.ok.inj houtcome)
          have hskeleton : statement.text.skeleton = statement'.text.skeleton := hpair.1
          refine ⟨hpair.2, statement.text.skeleton, ⟨filled_skeleton _, sqlTokens_skeleton _⟩, ?_⟩
          rw [hskeleton]
          exact ⟨filled_skeleton _, sqlTokens_skeleton _⟩

/-- A name that tries to end its identifier, beside one that does not. -/
theorem given_strings_stay_quoted_names :
    let query (name segment : String) : NormalizedQuery := .findMany {
      relation := .transactions
      parties := none
      predicate := some (.scalar ["transactionId"] .equals (.text segment))
      select := some ⟨["ix"], [⟨name, "traceContext", [segment], .text⟩]⟩
      includes := []
      orderBy := [⟨["ix"], .asc⟩]
      skip := 0
      take := none
      activeOnly := false }
    SameUpToGiven (compiled (compileQuery publicProfile (query "parent" "traceparent")))
      (compiled (compileQuery publicProfile (query "x\" from secrets --" "'; drop table secrets"))) :=
  given_strings_stay_quoted _ _ _ rfl

end Profile

end CantonSdk.Query.Pqs
