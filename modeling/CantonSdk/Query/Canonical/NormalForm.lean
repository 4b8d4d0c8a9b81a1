import CantonSdk.Query.Canonical.FilterMeaning
import CantonSdk.Query.Canonical.QueryArguments

/-!
# The form of normalized queries

What the sources may rely on in a query that the normalizer has accepted: its conditions, selections, orders, aggregates and
groups are about fields of the relation they stand in, and each of its edges starts where it is followed.
-/

set_option linter.all false

namespace CantonSdk.Query.Canonical

open CantonSdk.Base QueryArgument

/-! ## Predicates -/

/-- A condition on a field of the relation, which for `templateId` is one on a part of it. -/
def PathFits (relation : QueryRelation) (path : List String) : Prop :=
  ∃ field rest, path = field :: rest ∧ field ∈ (queryRelationMetadata relation).fields ∧
    (relation = .contracts → field = "templateId" → ∃ part ∈ ["packageId", "moduleName", "entityName"], rest = [part])

mutual

def Fits (relation : QueryRelation) : QueryPredicate → Prop
  | .and children | .or children => FitAll relation children
  | .not child => Fits relation child
  | .scalar path _ _ => PathFits relation path
  | .relation edge _ predicate => edge.source = relation ∧ Fits edge.target predicate

def FitAll (relation : QueryRelation) : List QueryPredicate → Prop
  | [] => True
  | child :: rest => Fits relation child ∧ FitAll relation rest

end

section Predicates

variable {relation : QueryRelation}

theorem fitAll_iff {children : List QueryPredicate} : FitAll relation children ↔ ∀ child ∈ children, Fits relation child := by
  induction children with
  | nil => simp [FitAll]
  | cons child rest ih => rw [FitAll, ih, List.forall_mem_cons]

theorem fits_combine {children : List QueryPredicate} (h : ∀ child ∈ children, Fits relation child) :
    ∀ predicate ∈ combine .and children, Fits relation predicate := by
  intro predicate hpredicate
  match children with
  | [] => cases hpredicate
  | [child] =>
      obtain rfl := Option.some.inj hpredicate
      exact h child List.mem_cons_self
  | first :: second :: rest =>
      obtain rfl := Option.some.inj hpredicate
      rw [Fits, fitAll_iff]
      exact h

/-- The conditions that the operators of a filter become are all on its path. -/
theorem fits_operators {field : String} {kind : Normalized ScalarKind} {allowed : ScalarKind → List ScalarOperator}
    {nullable : Bool} {path : List String} {entries : List (String × QueryInput)} {predicates : List QueryPredicate}
    (hpath : PathFits relation path) (h : entries.mapM (normalizeOperator field kind allowed nullable path) = .ok predicates) :
    ∀ child ∈ predicates, Fits relation child := by
  intro child hchild
  obtain ⟨entry, -, hentry⟩ := exists_left_of_mem (mapM_eq_ok.mp h) hchild
  obtain ⟨operator, -, rfl⟩ := normalizeOperator_eq_ok hentry
  exact hpath

theorem pathFits_field {field : String} {rest : List String} (hfield : field ∈ (queryRelationMetadata relation).fields)
    (hname : relation = .contracts → field ≠ "templateId") : PathFits relation (field :: rest) :=
  ⟨field, rest, rfl, hfield, fun hrelation heq => absurd heq (hname hrelation)⟩

theorem pathFits_payload (rest : List String) : PathFits .contracts ("payload" :: rest) :=
  pathFits_field (by decide) fun _ => by decide

theorem templateId_fits {value : QueryInput} {children : List QueryPredicate} (h : normalizeTemplateId value = .ok children) :
    ∀ child ∈ children, Fits .contracts child := by
  intro child hchild
  rw [normalizeTemplateId] at h
  obtain ⟨fields, -, h⟩ := bind_eq_ok.mp h
  obtain ⟨_, hknown, h⟩ := bind_eq_ok.mp h
  obtain ⟨lists, hlists, h⟩ := bind_eq_ok.mp h
  obtain rfl := Except.ok.inj h
  obtain ⟨predicates, hpredicates, hmem⟩ := List.mem_flatten.mp hchild
  obtain ⟨entry, hentry, hnormalized⟩ := exists_left_of_mem (mapM_eq_ok.mp hlists) hpredicates
  obtain ⟨_, _, hnormalized⟩ := bind_eq_ok.mp hnormalized
  obtain ⟨_, _, hnormalized⟩ := bind_eq_ok.mp hnormalized
  have hpart := checkAll_eq_ok.mp hknown entry hentry
  rw [guardThat_eq_ok, decide_eq_true_eq] at hpart
  have hpath : PathFits .contracts ["templateId", entry.1] := ⟨_, _, rfl, by decide, fun _ _ => ⟨entry.1, hpart, rfl⟩⟩
  exact fits_operators hpath hnormalized child hmem

mutual

theorem walk_fits {path : List String} : ∀ {value : QueryInput} {predicates : List QueryPredicate},
    walk ("payload" :: path) value = .ok predicates → ∀ child ∈ predicates, Fits .contracts child
  | .object true fields, predicates, h => walkEntries_fits h

theorem walkEntries_fits {path : List String} : ∀ {fields : List (String × QueryInput)} {predicates : List QueryPredicate},
    walkEntries ("payload" :: path) fields = .ok predicates → ∀ child ∈ predicates, Fits .contracts child
  | [], predicates, h => by
      cases h
      exact fun _ hchild => absurd hchild List.not_mem_nil
  | (name, child) :: rest, predicates, h => by
      rw [walkEntries] at h
      obtain ⟨first, hfirst, h⟩ := bind_eq_ok.mp h
      obtain ⟨others, hothers, h⟩ := bind_eq_ok.mp h
      cases h
      rw [List.cons_append] at hfirst
      rw [List.forall_mem_append]
      refine ⟨?_, walkEntries_fits hothers⟩
      split at hfirst
      · obtain ⟨_, _, hfirst⟩ := bind_eq_ok.mp hfirst
        exact fits_operators (pathFits_payload _) hfirst
      · exact walk_fits hfirst

end

theorem payload_fits {value : QueryInput} {children : List QueryPredicate} (h : normalizePayloadMatch value = .ok children) :
    ∀ child ∈ children, Fits .contracts child := by
  rw [normalizePayloadMatch] at h
  obtain ⟨fields, -, h⟩ := bind_eq_ok.mp h
  split at h
  · exact walk_fits h
  · cases h

theorem scalarFilter_fits {field : String} {value : QueryInput} {children : List QueryPredicate}
    (hfield : field ∈ (queryRelationMetadata relation).fields) (hname : relation = .contracts → field ≠ "templateId")
    (h : normalizeScalarFilter relation field value = .ok children) : ∀ child ∈ children, Fits relation child := by
  have hpath (rest : List String) : PathFits relation (field :: rest) := pathFits_field hfield hname
  rw [normalizeScalarFilter] at h
  split at h
  · next hwitnesses =>
      obtain ⟨rfl, rfl⟩ := hwitnesses
      rw [normalizeContractWitnesses] at h
      obtain ⟨fields, -, h⟩ := bind_eq_ok.mp h
      split at h
      · cases h
        exact List.forall_mem_singleton.mpr (hpath [])
      · cases h
  · split at h
    · cases h
      exact List.forall_mem_singleton.mpr (hpath [])
    · obtain ⟨_, _, h⟩ := bind_eq_ok.mp h
      split at h
      · rw [normalizeJsonFilter] at h
        obtain ⟨_, _, h⟩ := bind_eq_ok.mp h
        obtain ⟨path, _, h⟩ := bind_eq_ok.mp h
        obtain ⟨_, _, h⟩ := bind_eq_ok.mp h
        exact fits_operators (hpath path) h
      · obtain ⟨_, _, h⟩ := bind_eq_ok.mp h
        exact fits_operators (hpath []) h

theorem source_of_relationEdge {field : String} {edge : QueryEdge} (h : relationEdge relation field = some edge) :
    edge.source = relation := by
  have hmem := List.mem_of_find?_eq_some h
  cases relation <;> simp only [queryRelationEdges, List.mem_cons, List.not_mem_nil, or_false] at hmem <;>
    rcases hmem with rfl | rfl | rfl | rfl | rfl | rfl <;> rfl

/-- What the branches of `normalizePredicate` are taken for. -/
theorem whereEntry_cases (relation : QueryRelation) (field : String) :
    (whereEntry relation field = .templateId → relation = .contracts) ∧ (whereEntry relation field = .payload → relation = .contracts) ∧
      (∀ edge, whereEntry relation field = .edge edge → edge.source = relation) ∧
      (whereEntry relation field = .field → relation = .contracts → field ≠ "templateId") := by
  unfold whereEntry
  split
  · simp
  split
  · simp
  split
  · simp
  split
  · next h => simp [h.1]
  split
  · next h => simp [h.1]
  next htemplate _ =>
    cases hedge : relationEdge relation field with
    | none => exact ⟨nofun, nofun, nofun, fun _ hrelation heq => htemplate ⟨hrelation, heq⟩⟩
    | some edge =>
        refine ⟨nofun, nofun, fun other hother => ?_, nofun⟩
        obtain rfl := WhereEntry.edge.inj hother
        exact source_of_relationEdge hedge

/-- An entry that is about a field is about one of the relation. -/
theorem mem_fields_of_entry {field : String} {operand : QueryInput} {children : List QueryPredicate}
    (h : normalizeEntries relation [(field, operand)] = .ok children) (hfield : whereEntry relation field = .field) :
    field ∈ (queryRelationMetadata relation).fields := by
  unfold normalizeEntries at h
  obtain ⟨first, hfirst, -⟩ := bind_eq_ok.mp h
  rw [hfield] at hfirst
  obtain ⟨_, hguard, -⟩ := bind_eq_ok.mp hfirst
  rwa [guardThat_eq_ok, decide_eq_true_eq] at hguard

/-- Whatever the normalizer makes of an input fits. -/
def NormalizesToFit (value : QueryInput) : Prop :=
  ∀ {relation : QueryRelation} {predicate : Option QueryPredicate}, normalizePredicate relation value = .ok predicate →
    ∀ condition ∈ predicate, Fits relation condition

theorem children_fit {items : List QueryInput} (hitems : ∀ item ∈ items, NormalizesToFit item) {children : List QueryPredicate}
    (h : normalizeChildren relation items = .ok children) : FitAll relation children := by
  rw [fitAll_iff]
  induction items generalizing children with
  | nil =>
      cases h
      exact fun _ hchild => absurd hchild List.not_mem_nil
  | cons item rest ih =>
      rw [normalizeChildren] at h
      obtain ⟨first, hfirst, h⟩ := bind_eq_ok.mp h
      obtain ⟨others, hothers, h⟩ := bind_eq_ok.mp h
      cases h
      rw [List.forall_mem_cons] at hitems
      rw [List.forall_mem_append]
      exact ⟨fun child hchild => hitems.1 hfirst child (Option.mem_toList.mp hchild), ih hitems.2 hothers⟩

theorem entry_fits {field : String} {operand : QueryInput} {children : List QueryPredicate}
    (hsmaller : ∀ value, sizeOf value ≤ sizeOf operand → NormalizesToFit value)
    (h : normalizeEntries relation [(field, operand)] = .ok children) : ∀ child ∈ children, Fits relation child := by
  obtain ⟨htemplate, hpayload, hedges, hname⟩ := whereEntry_cases relation field
  have hfields := mem_fields_of_entry h
  cases normalizeEntries_singleton h with
  | @and items _ _ hchildren | @or items _ _ hchildren =>
      refine List.forall_mem_singleton.mpr (children_fit (fun item hitem => hsmaller item ?_) hchildren)
      have := sizeOf_item hitem
      omega
  | @not _ child _ hchild =>
      have hfits : Fits relation child := hsmaller _ (Nat.le_refl _) hchild child rfl
      exact List.forall_mem_singleton.mpr hfits
  | templateId hfield hchildren =>
      obtain rfl := htemplate hfield
      exact templateId_fits hchildren
  | payload hfield hchildren =>
      obtain rfl := hpayload hfield
      exact payload_fits hchildren
  | toOne hfield _ hchild =>
      exact List.forall_mem_singleton.mpr ⟨hedges _ hfield, hsmaller _ (Nat.le_refl _) hchild _ rfl⟩
  | @toMany name inner _ _ _ hfield _ _ hchild =>
      refine List.forall_mem_singleton.mpr ⟨hedges _ hfield, hsmaller inner ?_ hchild _ rfl⟩
      simp only [QueryInput.object.sizeOf_spec, List.cons.sizeOf_spec, Prod.mk.sizeOf_spec]
      omega
  | field hfield hchildren => exact scalarFilter_fits (hfields hfield) (hname hfield) hchildren

theorem entries_fit {fields : List (String × QueryInput)}
    (hsmaller : ∀ entry ∈ fields, ∀ value, sizeOf value ≤ sizeOf entry.2 → NormalizesToFit value)
    {children : List QueryPredicate} (h : normalizeEntries relation fields = .ok children) :
    ∀ child ∈ children, Fits relation child := by
  induction fields generalizing children with
  | nil =>
      cases h
      exact fun _ hchild => absurd hchild List.not_mem_nil
  | cons entry rest ih =>
      rw [List.forall_mem_cons] at hsmaller
      obtain ⟨first, others, hfirst, hothers, rfl⟩ := normalizeEntries_cons h
      rw [List.forall_mem_append]
      exact ⟨entry_fits hsmaller.1 hfirst, ih hsmaller.2 hothers⟩

theorem normalizesToFit (value : QueryInput) : NormalizesToFit value := by
  induction hsize : sizeOf value using Nat.strong_induction_on generalizing value with
  | _ size ih =>
      intro relation predicate h
      match value with
      | .object true fields =>
          obtain ⟨children, hchildren, h⟩ := bind_eq_ok.mp h
          obtain rfl := Except.ok.inj h
          refine fits_combine (entries_fit (fun entry hentry inner hinner => ih _ ?_ inner rfl) hchildren)
          have := sizeOf_entry hentry true
          omega

theorem optionalPredicate_fits {value : QueryArgument} {predicate : Option QueryPredicate}
    (h : optionalPredicate relation value = .ok predicate) : ∀ condition ∈ predicate, Fits relation condition := by
  unfold optionalPredicate unlessUndefined at h
  split at h
  · cases h
    exact fun _ hcondition => absurd hcondition nofun
  · exact normalizesToFit _ h

end Predicates

/-! ## Selections and orders -/

structure SelectionFits (relation : QueryRelation) (select : NormalizedSelection) : Prop where
  fields : ∀ field ∈ select.fields, field ∈ (queryRelationMetadata relation).fields
  json : ∀ projection ∈ select.json, projection.field ∈ (queryRelationMetadata relation).jsonFields
  notEmpty : (select.fields.isEmpty && select.json.isEmpty) = false

def OrderFits (relation : QueryRelation) (orderBy : List NormalizedOrder) : Prop :=
  ∀ order ∈ orderBy, ∃ field ∈ (queryRelationMetadata relation).orderFields, order.path = [field]

section Selections

variable {relation : QueryRelation}

theorem jsonSelection_fits {name : String} {value : QueryArgument} {projection : NormalizedJsonSelection}
    (h : normalizeJsonSelection relation name value = .ok projection) :
    projection.field ∈ (queryRelationMetadata relation).jsonFields := by
  obtain ⟨fields, -, h⟩ := bind_eq_ok.mp h
  obtain ⟨_, -, h⟩ := bind_eq_ok.mp h
  split at h
  · obtain ⟨_, hfield, h⟩ := bind_eq_ok.mp h
    obtain ⟨as, -, h⟩ := bind_eq_ok.mp h
    obtain ⟨path, -, h⟩ := bind_eq_ok.mp h
    obtain rfl := Except.ok.inj h
    rwa [guardThat_eq_ok, decide_eq_true_eq] at hfield
  · cases h

theorem selected_fits {field : String} {enabled : QueryArgument} {selected : NormalizedSelection}
    (h : normalizeSelected relation field enabled = .ok selected) :
    (∀ name ∈ selected.fields, name ∈ (queryRelationMetadata relation).fields) ∧
      ∀ projection ∈ selected.json, projection.field ∈ (queryRelationMetadata relation).jsonFields := by
  unfold normalizeSelected at h
  split at h
  · obtain ⟨projections, -, h⟩ := bind_eq_ok.mp h
    obtain ⟨json, hjson, h⟩ := bind_eq_ok.mp h
    obtain rfl := Except.ok.inj h
    refine ⟨fun _ hname => absurd hname List.not_mem_nil, fun projection hprojection => ?_⟩
    obtain ⟨entry, -, hentry⟩ := exists_left_of_mem (mapM_eq_ok.mp hjson) hprojection
    exact jsonSelection_fits hentry
  · obtain ⟨_, hfield, h⟩ := bind_eq_ok.mp h
    rw [guardThat_eq_ok, decide_eq_true_eq] at hfield
    split at h
    · obtain rfl := Except.ok.inj h
      exact ⟨List.forall_mem_singleton.mpr hfield, fun _ hprojection => absurd hprojection List.not_mem_nil⟩
    · obtain rfl := Except.ok.inj h
      exact ⟨fun _ hname => absurd hname List.not_mem_nil, fun _ hprojection => absurd hprojection List.not_mem_nil⟩
    · cases h

theorem selection_fits {value : QueryArgument} {select : NormalizedSelection} (h : normalizeSelection relation value = .ok select) :
    SelectionFits relation select := by
  obtain ⟨fields, -, h⟩ := bind_eq_ok.mp h
  obtain ⟨selected, hselected, h⟩ := bind_eq_ok.mp h
  obtain ⟨_, hsome, h⟩ := bind_eq_ok.mp h
  obtain rfl := Except.ok.inj h
  have hentries : ∀ part ∈ selected, (∀ name ∈ part.fields, name ∈ (queryRelationMetadata relation).fields) ∧
      ∀ projection ∈ part.json, projection.field ∈ (queryRelationMetadata relation).jsonFields := by
    intro part hpart
    obtain ⟨entry, -, hentry⟩ := exists_left_of_mem (mapM_eq_ok.mp hselected) hpart
    exact selected_fits hentry
  refine ⟨fun name hname => ?_, fun projection hprojection => ?_, ?_⟩
  · obtain ⟨part, hpart, hmem⟩ := List.mem_flatMap.mp hname
    exact (hentries part hpart).1 name hmem
  · obtain ⟨part, hpart, hmem⟩ := List.mem_flatMap.mp hprojection
    exact (hentries part hpart).2 projection hmem
  · rwa [guardThat_eq_ok, Bool.not_eq_true'] at hsome

theorem optionalSelection_fits {value : QueryArgument} {select : Option NormalizedSelection}
    (h : optionalSelection relation value = .ok select) : ∀ selection ∈ select, SelectionFits relation selection := by
  unfold optionalSelection unlessUndefined at h
  split at h
  · obtain rfl := Except.ok.inj h
    exact nofun
  · obtain ⟨selection, hselection, h⟩ := bind_eq_ok.mp h
    obtain rfl := Except.ok.inj h
    intro other hother
    obtain rfl := Option.some.inj hother
    exact selection_fits hselection

variable (relation) in
theorem stableOrder_subset :
    ∀ field ∈ (queryRelationMetadata relation).stableOrder, field ∈ (queryRelationMetadata relation).orderFields := by
  cases relation <;> decide

theorem appendStable_fits {requested : List NormalizedOrder} (h : OrderFits relation requested) :
    OrderFits relation (appendStable (queryRelationMetadata relation) requested) := by
  have hstable := stableOrder_subset relation
  unfold appendStable
  generalize (queryRelationMetadata relation).stableOrder = stable at hstable ⊢
  induction stable generalizing requested with
  | nil => exact h
  | cons field rest ih =>
      rw [List.forall_mem_cons] at hstable
      rw [List.foldl_cons]
      split
      · exact ih h hstable.2
      · refine ih ?_ hstable.2
        rw [OrderFits, List.forall_mem_append]
        exact ⟨h, List.forall_mem_singleton.mpr ⟨field, hstable.1, rfl⟩⟩

theorem order_fits {entry : QueryInput} {order : NormalizedOrder} (h : normalizeOrder relation entry = .ok order) :
    ∃ field ∈ (queryRelationMetadata relation).orderFields, order.path = [field] := by
  obtain ⟨fields, -, h⟩ := bind_eq_ok.mp h
  split at h
  next field direction _ =>
    obtain ⟨_, hfield, h⟩ := bind_eq_ok.mp h
    rw [guardThat_eq_ok, decide_eq_true_eq] at hfield
    refine ⟨field, hfield, ?_⟩
    split at h
    · obtain rfl := Except.ok.inj h
      rfl
    · obtain rfl := Except.ok.inj h
      rfl
    · cases h

theorem orderBy_fits {value : QueryInput} {stable : Bool} {orderBy : List NormalizedOrder}
    (h : normalizeOrderBy relation value stable = .ok orderBy) : OrderFits relation orderBy := by
  obtain ⟨requested, hrequested, h⟩ := bind_eq_ok.mp h
  obtain rfl := Except.ok.inj h
  have hfits : OrderFits relation requested := by
    split at hrequested
    · obtain rfl := Except.ok.inj hrequested
      exact fun _ horder => absurd horder List.not_mem_nil
    · obtain ⟨_, -, hrequested⟩ := bind_eq_ok.mp hrequested
      intro order horder
      obtain ⟨entry, -, hentry⟩ := exists_left_of_mem (mapM_eq_ok.mp hrequested) horder
      exact order_fits hentry
    · cases hrequested
  split
  · exact appendStable_fits hfits
  · exact hfits

end Selections

/-! ## Includes -/

mutual

def IncludeFits (source : QueryRelation) : NormalizedInclude → Prop
  | ⟨edge, predicate, select, includes, orderBy, _, take⟩ =>
      edge.source = source ∧ (∀ condition ∈ predicate, Fits edge.target condition) ∧
        (∀ selection ∈ select, SelectionFits edge.target selection) ∧ IncludesFit edge.target includes ∧
        OrderFits edge.target orderBy ∧ (edge.cardinality = .many → take.isSome = true)

def IncludesFit (source : QueryRelation) : List NormalizedInclude → Prop
  | [] => True
  | include_ :: rest => IncludeFits source include_ ∧ IncludesFit source rest

end

mutual

theorem includes_fit {relation : QueryRelation} : ∀ {value : QueryArgument} {includes : List NormalizedInclude},
    normalizeIncludes relation value = .ok includes → IncludesFit relation includes
  | .object true fields, includes, h => includeEntries_fit h

theorem includeEntries_fit {relation : QueryRelation} : ∀ {fields : List (String × QueryArgument)}
    {includes : List NormalizedInclude}, normalizeIncludeEntries relation fields = .ok includes → IncludesFit relation includes
  | [], includes, h => by
      obtain rfl := Except.ok.inj h
      exact trivial
  | (edgeName, option) :: rest, includes, h => by
      rw [normalizeIncludeEntries] at h
      obtain ⟨edge, hedge, h⟩ := bind_eq_ok.mp h
      obtain ⟨first, hfirst, h⟩ := bind_eq_ok.mp h
      obtain ⟨others, hothers, h⟩ := bind_eq_ok.mp h
      obtain rfl := Except.ok.inj h
      have hsource : edge.source = relation := by
        cases hfound : relationEdge relation edgeName with
        | none =>
            rw [hfound] at hedge
            cases hedge
        | some found =>
            rw [hfound] at hedge
            obtain rfl := Except.ok.inj hedge
            exact source_of_relationEdge hfound
      exact ⟨hsource ▸ include_fits hfirst, includeEntries_fit hothers⟩

theorem include_fits {edge : QueryEdge} : ∀ {value : QueryArgument} {include_ : NormalizedInclude},
    normalizeInclude edge value = .ok include_ → IncludeFits edge.source include_
  | .bool true, include_, h => by
      rw [normalizeInclude] at h
      obtain ⟨_, hone, h⟩ := bind_eq_ok.mp h
      obtain rfl := Except.ok.inj h
      rw [guardThat_eq_ok, decide_eq_true_eq] at hone
      exact ⟨rfl, nofun, nofun, trivial, fun _ horder => absurd horder List.not_mem_nil, fun hmany => by simp [hone] at hmany⟩
  | .object true settings, include_, h => by
      rw [normalizeInclude] at h
      obtain ⟨_, -, h⟩ := bind_eq_ok.mp h
      obtain ⟨page, -, h⟩ := bind_eq_ok.mp h
      obtain ⟨_, htake, h⟩ := bind_eq_ok.mp h
      obtain ⟨predicate, hpredicate, h⟩ := bind_eq_ok.mp h
      obtain ⟨select, hselect, h⟩ := bind_eq_ok.mp h
      obtain ⟨includes, hincludes, h⟩ := bind_eq_ok.mp h
      obtain ⟨orderBy, horderBy, h⟩ := bind_eq_ok.mp h
      obtain rfl := Except.ok.inj h
      refine ⟨rfl, optionalPredicate_fits hpredicate, optionalSelection_fits hselect, nestedIncludes_fit hincludes,
        orderBy_fits horderBy, fun hmany => ?_⟩
      simpa [hmany] using htake

theorem nestedIncludes_fit {relation : QueryRelation} : ∀ {fields : List (String × QueryArgument)}
    {includes : List NormalizedInclude}, nestedIncludes relation fields = .ok includes → IncludesFit relation includes
  | [], includes, h => by
      obtain rfl := Except.ok.inj h
      exact trivial
  | (key, value) :: rest, includes, h => by
      rw [nestedIncludes] at h
      split at h
      · split at h
        · obtain rfl := Except.ok.inj h
          exact trivial
        · exact includes_fit h
      · exact nestedIncludes_fit h

end

/-! ## Aggregates and groups -/

/-- The aggregates ask for something, and for fields of the given ones only. -/
structure AggregatesFit (fields : List String) (aggregates : NormalizedAggregateSelection) : Prop where
  fields : ∀ field ∈ aggregates.min ++ aggregates.max ++ aggregates.sum, field ∈ fields
  asked : aggregates.count = true ∨ aggregates.min ++ aggregates.max ++ aggregates.sum ≠ []

def GroupKeyFits (relation : QueryRelation) : NormalizedGroupKey → Prop
  | .field path => ∃ field ∈ (queryRelationMetadata relation).groupFields, path = [field]
  | .json field name _ _ => field ∈ (queryRelationMetadata relation).jsonFields ∧ name ≠ ""
  | .bucket field _ => field ∈ (queryRelationMetadata relation).bucketFields
  | .relatedBucket edge field _ =>
      edge.source = relation ∧ edge.cardinality = .one ∧ field ∈ (queryRelationMetadata edge.target).bucketFields

section Groups

variable {relation : QueryRelation}

theorem aggregatedFields_subset {fields : List String} {name : String} {value : QueryArgument} {selected : List String}
    (h : aggregatedFields relation fields name value = .ok selected) : ∀ field ∈ selected, field ∈ fields := by
  unfold aggregatedFields at h
  split at h
  · obtain rfl := Except.ok.inj h
    exact fun _ hfield => absurd hfield List.not_mem_nil
  · split at h
    · cases h
    · obtain ⟨_, hall, h⟩ := bind_eq_ok.mp h
      obtain rfl := Except.ok.inj h
      rw [guardThat_eq_ok, List.all_eq_true] at hall
      exact fun field hfield => of_decide_eq_true (hall field (List.mem_eraseDups.mp hfield))

theorem aggregates_fit {value : List (String × QueryArgument)} {numericOnly : Bool} {aggregates : NormalizedAggregateSelection}
    (h : normalizeAggregates relation value numericOnly = .ok aggregates) :
    AggregatesFit (if numericOnly then (queryRelationMetadata relation).numericFields else (queryRelationMetadata relation).fields)
      aggregates := by
  obtain ⟨_, -, h⟩ := bind_eq_ok.mp h
  obtain ⟨count, -, h⟩ := bind_eq_ok.mp h
  obtain ⟨min, hmin, h⟩ := bind_eq_ok.mp h
  obtain ⟨max, hmax, h⟩ := bind_eq_ok.mp h
  obtain ⟨sum, hsum, h⟩ := bind_eq_ok.mp h
  obtain ⟨_, hasked, h⟩ := bind_eq_ok.mp h
  obtain rfl := Except.ok.inj h
  refine ⟨?_, ?_⟩
  · simp only [List.mem_append]
    rintro field ((hfield | hfield) | hfield)
    · exact aggregatedFields_subset hmin field hfield
    · exact aggregatedFields_subset hmax field hfield
    · exact aggregatedFields_subset hsum field hfield
  · rw [guardThat_eq_ok] at hasked
    simp only [Bool.or_eq_true, Bool.not_eq_true', List.isEmpty_eq_false_iff] at hasked
    simp only [ne_eq, List.append_eq_nil_iff]
    tauto

theorem jsonGroup_fits {field : String} {value : QueryArgument} {key : NormalizedGroupKey}
    (hfield : field ∈ (queryRelationMetadata relation).jsonFields) (h : normalizeJsonGroup field value = .ok key) :
    GroupKeyFits relation key := by
  obtain ⟨projection, -, h⟩ := bind_eq_ok.mp h
  obtain ⟨_, -, h⟩ := bind_eq_ok.mp h
  split at h
  · obtain ⟨_, hname, h⟩ := bind_eq_ok.mp h
    obtain ⟨as, -, h⟩ := bind_eq_ok.mp h
    obtain ⟨path, -, h⟩ := bind_eq_ok.mp h
    obtain rfl := Except.ok.inj h
    rw [guardThat_eq_ok, decide_eq_true_eq] at hname
    exact ⟨hfield, hname⟩
  · cases h

theorem relatedBucket_fits {edge : QueryEdge} (hone : edge.cardinality = .one) {value : QueryArgument} {key : NormalizedGroupKey}
    (h : normalizeRelatedBucket edge value = .ok key) : GroupKeyFits edge.source key := by
  obtain ⟨fields, -, h⟩ := bind_eq_ok.mp h
  split at h
  · obtain ⟨_, hfield, h⟩ := bind_eq_ok.mp h
    obtain ⟨bucket, -, h⟩ := bind_eq_ok.mp h
    obtain rfl := Except.ok.inj h
    rw [guardThat_eq_ok, decide_eq_true_eq] at hfield
    exact ⟨rfl, hone, hfield⟩
  · cases h

theorem groupKey_fits {value : QueryArgument} {key : NormalizedGroupKey} (h : normalizeGroupKey relation value = .ok key) :
    GroupKeyFits relation key := by
  unfold normalizeGroupKey at h
  dsimp only at h
  split at h
  · obtain ⟨_, hfield, h⟩ := bind_eq_ok.mp h
    obtain rfl := Except.ok.inj h
    rw [guardThat_eq_ok, decide_eq_true_eq] at hfield
    exact ⟨_, hfield, rfl⟩
  · obtain ⟨fields, -, h⟩ := bind_eq_ok.mp h
    split at h
    · next field nested =>
        split at h
        · next hjson => exact jsonGroup_fits hjson h
        split at h
        · next hbucket =>
            obtain ⟨bucket, -, h⟩ := bind_eq_ok.mp h
            obtain rfl := Except.ok.inj h
            exact hbucket
        split at h
        · next edge hedge =>
            obtain ⟨hedge, hone⟩ := Option.filter_eq_some_iff.mp hedge
            rw [← source_of_relationEdge hedge]
            exact relatedBucket_fits (of_decide_eq_true hone) h
        · cases h
    · cases h

end Groups

/-! ## Queries -/

/-- What may be relied on in a normalized query. -/
def WellFormed : NormalizedQuery → Prop
  | .findMany query =>
      (∀ condition ∈ query.predicate, Fits query.relation condition) ∧
        (∀ selection ∈ query.select, SelectionFits query.relation selection) ∧ IncludesFit query.relation query.includes ∧
        OrderFits query.relation query.orderBy ∧ (query.parties.isSome = true → query.relation = .contracts)
  | .findUnique query =>
      Fits query.relation query.predicate ∧ (∀ selection ∈ query.select, SelectionFits query.relation selection) ∧
        IncludesFit query.relation query.includes
  | .count query =>
      (∀ condition ∈ query.predicate, Fits query.relation condition) ∧
        (query.parties.isSome = true → query.relation = .contracts)
  | .aggregate query =>
      (∀ condition ∈ query.predicate, Fits query.relation condition) ∧
        AggregatesFit (queryRelationMetadata query.relation).fields query.aggregates
  | .groupBy query =>
      (∀ condition ∈ query.predicate, Fits query.relation condition) ∧ query.by_ ≠ [] ∧
        (∀ key ∈ query.by_, GroupKeyFits query.relation key) ∧
        AggregatesFit (queryRelationMetadata query.relation).numericFields query.aggregates

section Queries

variable {relation : QueryRelation} {args : QueryArgument}

theorem parties_fit {value : QueryArgument} {parties : Option (List String)} (h : normalizeParties relation value = .ok parties) :
    parties.isSome = true → relation = .contracts := by
  intro hsome
  unfold normalizeParties at h
  split at h
  · obtain rfl := Except.ok.inj h
    cases hsome
  · split at h
    · cases h
    · next hrelation => exact not_not.mp hrelation

theorem findMany_wellFormed {query : NormalizedFindManyQuery} (h : normalizeFindMany relation args = .ok query) :
    WellFormed (.findMany query) := by
  obtain ⟨source, -, h⟩ := bind_eq_ok.mp h
  obtain ⟨_, -, h⟩ := bind_eq_ok.mp h
  obtain ⟨page, -, h⟩ := bind_eq_ok.mp h
  obtain ⟨predicate, hpredicate, h⟩ := bind_eq_ok.mp h
  obtain ⟨parties, hparties, h⟩ := bind_eq_ok.mp h
  obtain ⟨select, hselect, h⟩ := bind_eq_ok.mp h
  obtain ⟨includes, hincludes, h⟩ := bind_eq_ok.mp h
  obtain ⟨orderBy, horderBy, h⟩ := bind_eq_ok.mp h
  obtain rfl := Except.ok.inj h
  exact ⟨optionalPredicate_fits hpredicate, optionalSelection_fits hselect, nestedIncludes_fit hincludes, orderBy_fits horderBy,
    parties_fit hparties⟩

theorem uniqueCondition_fits {entry : String × QueryArgument} {child : QueryPredicate}
    (hname : relation = .contracts → entry.1 ≠ "templateId")
    (h : (do
      assertUniqueEqualityValue (queryRelationMetadata relation) entry.1 entry.2
      return .scalar [entry.1] .equals (clone entry.2.input) : Normalized QueryPredicate) = .ok child) : Fits relation child := by
  obtain ⟨_, hvalue, h⟩ := bind_eq_ok.mp h
  obtain rfl := Except.ok.inj h
  obtain ⟨_, hfield, -⟩ := bind_eq_ok.mp hvalue
  rw [guardThat_eq_ok, decide_eq_true_eq] at hfield
  exact pathFits_field hfield hname

/-- No unique key has more than one field, and none of them is the template. -/
theorem uniqueKeys_single : ∀ key ∈ (queryRelationMetadata relation).uniqueKeys, ∃ field, key = [field] ∧ field ≠ "templateId" := by
  cases relation <;> simp [queryRelationMetadata]

theorem findUnique_wellFormed {query : NormalizedFindUniqueQuery} (h : normalizeFindUnique relation args = .ok query) :
    WellFormed (.findUnique query) := by
  obtain ⟨source, -, h⟩ := bind_eq_ok.mp h
  obtain ⟨_, -, h⟩ := bind_eq_ok.mp h
  obtain ⟨condition, -, h⟩ := bind_eq_ok.mp h
  obtain ⟨_, hkey, h⟩ := bind_eq_ok.mp h
  obtain ⟨children, hchildren, h⟩ := bind_eq_ok.mp h
  obtain ⟨predicate, hpredicate, h⟩ := bind_eq_ok.mp h
  obtain ⟨select, hselect, h⟩ := bind_eq_ok.mp h
  obtain ⟨includes, hincludes, h⟩ := bind_eq_ok.mp h
  obtain rfl := Except.ok.inj h
  rw [guardThat_eq_ok, List.any_eq_true] at hkey
  obtain ⟨key, hmem, hkey⟩ := hkey
  rw [Bool.and_eq_true, decide_eq_true_eq, List.all_eq_true] at hkey
  obtain ⟨field, rfl, hfield⟩ := uniqueKeys_single key hmem
  have hname : ∀ entry ∈ condition, entry.1 ≠ "templateId" := by
    obtain ⟨entry, rfl⟩ := List.length_eq_one_iff.mp (by simpa using hkey.1.symm)
    have hentry : field = entry.1 := by simpa using hkey.2 field List.mem_cons_self
    exact List.forall_mem_singleton.mpr (hentry ▸ hfield)
  refine ⟨fits_combine (fun child hchild => ?_) predicate (required_eq_ok hpredicate), optionalSelection_fits hselect,
    nestedIncludes_fit hincludes⟩
  obtain ⟨entry, hentry, hnormalized⟩ := exists_left_of_mem (mapM_eq_ok.mp hchildren) hchild
  exact uniqueCondition_fits (fun _ => hname entry hentry) hnormalized

theorem count_wellFormed {query : NormalizedCountQuery} (h : normalizeCount relation args = .ok query) :
    WellFormed (.count query) := by
  obtain ⟨source, -, h⟩ := bind_eq_ok.mp h
  obtain ⟨_, -, h⟩ := bind_eq_ok.mp h
  obtain ⟨predicate, hpredicate, h⟩ := bind_eq_ok.mp h
  obtain ⟨parties, hparties, h⟩ := bind_eq_ok.mp h
  obtain rfl := Except.ok.inj h
  exact ⟨optionalPredicate_fits hpredicate, parties_fit hparties⟩

theorem aggregate_wellFormed {query : NormalizedAggregateQuery} (h : normalizeAggregate relation args = .ok query) :
    WellFormed (.aggregate query) := by
  obtain ⟨source, -, h⟩ := bind_eq_ok.mp h
  obtain ⟨_, -, h⟩ := bind_eq_ok.mp h
  obtain ⟨predicate, hpredicate, h⟩ := bind_eq_ok.mp h
  obtain ⟨aggregates, haggregates, h⟩ := bind_eq_ok.mp h
  obtain rfl := Except.ok.inj h
  exact ⟨optionalPredicate_fits hpredicate, aggregates_fit haggregates⟩

theorem groupBy_wellFormed {query : NormalizedGroupByQuery} (h : normalizeGroupBy relation args = .ok query) :
    WellFormed (.groupBy query) := by
  obtain ⟨source, -, h⟩ := bind_eq_ok.mp h
  obtain ⟨_, -, h⟩ := bind_eq_ok.mp h
  split at h
  · next key rest _ =>
      obtain ⟨predicate, hpredicate, h⟩ := bind_eq_ok.mp h
      obtain ⟨by_, hby, h⟩ := bind_eq_ok.mp h
      obtain ⟨asked, -, h⟩ := bind_eq_ok.mp h
      obtain ⟨aggregates, haggregates, h⟩ := bind_eq_ok.mp h
      obtain rfl := Except.ok.inj h
      refine ⟨optionalPredicate_fits hpredicate, ?_, fun groupKey hgroupKey => ?_, aggregates_fit haggregates⟩
      · rintro (rfl : by_ = [])
        cases (mapM_eq_ok.mp hby).length_eq
      · obtain ⟨value, -, hvalue⟩ := exists_left_of_mem (mapM_eq_ok.mp hby) hgroupKey
        exact groupKey_fits hvalue
  · cases h

/-- Every query that the normalizer accepts has the form that the sources rely on. -/
theorem wellFormed_of_normalized {kind : QueryKind} {query : NormalizedQuery} (h : normalizeQuery kind relation args = .ok query) :
    WellFormed query := by
  cases kind with
  | findMany =>
      obtain ⟨query, hquery, h⟩ := bind_eq_ok.mp h
      obtain rfl := Except.ok.inj h
      exact findMany_wellFormed hquery
  | findUnique =>
      obtain ⟨query, hquery, h⟩ := bind_eq_ok.mp h
      obtain rfl := Except.ok.inj h
      exact findUnique_wellFormed hquery
  | count =>
      obtain ⟨query, hquery, h⟩ := bind_eq_ok.mp h
      obtain rfl := Except.ok.inj h
      exact count_wellFormed hquery
  | aggregate =>
      obtain ⟨query, hquery, h⟩ := bind_eq_ok.mp h
      obtain rfl := Except.ok.inj h
      exact aggregate_wellFormed hquery
  | groupBy =>
      obtain ⟨query, hquery, h⟩ := bind_eq_ok.mp h
      obtain rfl := Except.ok.inj h
      exact groupBy_wellFormed hquery

end Queries

end CantonSdk.Query.Canonical
