import CantonSdk.Base.Related
import CantonSdk.Query.Canonical.Evaluator
import CantonSdk.Query.Canonical.QueryNormalizer
import Mathlib.Logic.Relation

/-!
# What a filter means

A filter is read as it is built: an object is the conjunction of its entries, and what holds of a row is said in terms
of the row and of the rows it leads to. A normalized filter holds of the same rows, as long as every disjunction with a
disjunct that says nothing has another disjunct that holds.
-/

set_option linter.all false

namespace CantonSdk.Query.Canonical

open CantonSdk.Base

section Meaning

variable (runtime : JsRuntime) (dataset : CompiledDataset)

/-! ## Fields -/

/-- An operator of a filter holds of a value. -/
def OperatorHolds (value : Option QueryValue) (entry : String × QueryInput) : Prop :=
  ∃ operator, scalarOperator entry.1 = some operator ∧ matchesScalar runtime value operator (clone entry.2) = true

def OperatorsHold (value : Option QueryValue) (entries : List (String × QueryInput)) : Prop :=
  ∀ entry ∈ entries, OperatorHolds runtime value entry

mutual

/-- Every filter at the leaves of a payload pattern holds. -/
def PayloadHolds (row : QueryRow) (path : List String) : QueryInput → Prop
  | .object _ fields => PayloadEntriesHold row path fields
  | _ => False

def PayloadEntriesHold (row : QueryRow) (path : List String) : List (String × QueryInput) → Prop
  | [] => True
  | (name, child) :: rest =>
      (if isScalarFilter child then OperatorsHold runtime (row.atPath (path ++ [name])) child.entries
        else PayloadHolds row (path ++ [name]) child) ∧ PayloadEntriesHold row path rest

end

/-- The segments of the path of a JSON filter. -/
def pathSegments (fields : List (String × QueryInput)) : List String :=
  match pathEntry fields with
  | .array items => items.filterMap QueryInput.segment
  | _ => []

/-- The filter of a field holds of a row. -/
def FieldHolds (relation : QueryRelation) (row : QueryRow) (field : String) (value : QueryInput) : Prop :=
  match value with
  | .object _ fields =>
      if field ∈ (queryRelationMetadata relation).jsonFields then
        OperatorsHold runtime (row.atPath (field :: pathSegments fields)) (operatorEntries fields)
      else OperatorsHold runtime (row.atPath [field]) fields
  | value => OperatorHolds runtime (row.atPath [field]) ("equals", value)

/-! ## Predicates -/

/-- The row at a position leads to another along an edge. -/
def LeadsTo (edge : QueryEdge) (index target : Nat) : Prop :=
  ∃ related, relatedQueryRows dataset edge index = .ok related ∧ target ∈ related

mutual

/-- A filter holds of the row at a position. -/
def Holds (relation : QueryRelation) (index : Nat) : QueryInput → Prop
  | .object _ fields => EntriesHold relation index fields
  | _ => False

def EntriesHold (relation : QueryRelation) (index : Nat) : List (String × QueryInput) → Prop
  | [] => True
  | (field, operand) :: rest =>
      (match whereEntry relation field with
        | .and => match operand with | .array items => EveryHolds relation index items | _ => False
        | .or => match operand with | .array items => SomeHolds relation index items | _ => False
        | .not => ¬ Holds relation index operand
        | .templateId =>
            ∀ entry ∈ operand.entries,
              OperatorsHold runtime ((dataset.row relation index).atPath ["templateId", entry.1]) entry.2.entries
        | .payload =>
            ∀ entry ∈ operand.entries, PayloadHolds runtime (dataset.row relation index) ["payload"] entry.2
        | .edge edge =>
            match edge.cardinality with
            | .one => ∃ target, LeadsTo dataset edge index target ∧ Holds edge.target target operand
            | .many =>
                match operand with
                | .object _ [("some", filter)] =>
                    ∃ target, LeadsTo dataset edge index target ∧ Holds edge.target target filter
                | .object _ [("none", filter)] =>
                    ¬ ∃ target, LeadsTo dataset edge index target ∧ Holds edge.target target filter
                | .object _ [("every", filter)] =>
                    ∀ target, LeadsTo dataset edge index target → Holds edge.target target filter
                | _ => False
        | .field => FieldHolds runtime relation (dataset.row relation index) field operand)
      ∧ EntriesHold relation index rest

def EveryHolds (relation : QueryRelation) (index : Nat) : List QueryInput → Prop
  | [] => True
  | item :: rest => Holds relation index item ∧ EveryHolds relation index rest

def SomeHolds (relation : QueryRelation) (index : Nat) : List QueryInput → Prop
  | [] => False
  | item :: rest => Holds relation index item ∨ SomeHolds relation index rest

end

/-! ## Filters that say nothing -/

mutual

/-- A payload pattern has a filter at a leaf. -/
def hasLeaf : QueryInput → Bool
  | .object _ fields => anyLeaf fields
  | _ => false

def anyLeaf : List (String × QueryInput) → Bool
  | [] => false
  | (_, child) :: rest => isScalarFilter child || hasLeaf child || anyLeaf rest

end

/-- An object without entries, or with no others than template and payload filters without a filter in them. -/
def saysNothing (relation : QueryRelation) : QueryInput → Bool
  | .object _ fields =>
      fields.all fun entry =>
        match whereEntry relation entry.1 with
        | .templateId => entry.2.entries.isEmpty
        | .payload => entry.2.entries.all fun pattern => !hasLeaf pattern.2
        | _ => false
  | _ => false

/-! ## The parts of a filter -/

/-- A filter, and the row of which it is read. -/
structure FilterAt where
  relation : QueryRelation
  index : Nat
  value : QueryInput

/-- The filters in the operand of an object's only entry, at the rows of which they are read. -/
inductive Operand : FilterAt → FilterAt → Prop
  | and {relation : QueryRelation} {index : Nat} {field : String} {items : List QueryInput} {item : QueryInput}
      (hfield : whereEntry relation field = .and) (hitem : item ∈ items) :
      Operand ⟨relation, index, .object true [(field, .array items)]⟩ ⟨relation, index, item⟩
  | or {relation : QueryRelation} {index : Nat} {field : String} {items : List QueryInput} {item : QueryInput}
      (hfield : whereEntry relation field = .or) (hitem : item ∈ items) :
      Operand ⟨relation, index, .object true [(field, .array items)]⟩ ⟨relation, index, item⟩
  | not {relation : QueryRelation} {index : Nat} {field : String} {operand : QueryInput}
      (hfield : whereEntry relation field = .not) :
      Operand ⟨relation, index, .object true [(field, operand)]⟩ ⟨relation, index, operand⟩
  | toOne {relation : QueryRelation} {index target : Nat} {field : String} {edge : QueryEdge} {operand : QueryInput}
      (hfield : whereEntry relation field = .edge edge) (hone : edge.cardinality = .one)
      (hleads : LeadsTo dataset edge index target) :
      Operand ⟨relation, index, .object true [(field, operand)]⟩ ⟨edge.target, target, operand⟩
  | toMany {relation : QueryRelation} {index target : Nat} {field name : String} {edge : QueryEdge}
      {operand : QueryInput} (hfield : whereEntry relation field = .edge edge) (hmany : edge.cardinality = .many)
      (hleads : LeadsTo dataset edge index target) :
      Operand ⟨relation, index, .object true [(field, .object true [(name, operand)])]⟩ ⟨edge.target, target, operand⟩

/-- One step into a filter: to one of its entries, or from an entry into its operand. -/
inductive Inside : FilterAt → FilterAt → Prop
  | entry {relation : QueryRelation} {index : Nat} {fields : List (String × QueryInput)} {entry : String × QueryInput}
      (hentry : entry ∈ fields) :
      Inside ⟨relation, index, .object true fields⟩ ⟨relation, index, .object true [entry]⟩
  | operand {outer inner : FilterAt} (hoperand : Operand dataset outer inner) : Inside outer inner

/-- A filter that is read on the way through another. -/
def PartOf : FilterAt → FilterAt → Prop := Relation.ReflTransGen (Inside dataset)

/-- The normalized filter holds of the row exactly when the filter does. -/
def Preserved (filter : FilterAt) : Prop :=
  ∀ predicate result, normalizePredicate filter.relation filter.value = .ok predicate →
    matchesOptional runtime dataset filter.relation predicate filter.index = .ok result →
    (result = true ↔ Holds runtime dataset filter.relation filter.index filter.value)

/-- The evaluator has a result for the filter. -/
def Answered (filter : FilterAt) : Prop :=
  ∃ predicate result, normalizePredicate filter.relation filter.value = .ok predicate ∧
    matchesOptional runtime dataset filter.relation predicate filter.index = .ok result

/-- A disjunction with a disjunct that says nothing has another one that holds. -/
def Covered (filter : FilterAt) : Prop :=
  ∀ field items, filter.value = .object true [(field, .array items)] → whereEntry filter.relation field = .or →
    Answered runtime dataset filter → (∃ item ∈ items, saysNothing filter.relation item = true) →
    ∃ item ∈ items, saysNothing filter.relation item = false ∧ Holds runtime dataset filter.relation filter.index item

end Meaning

/-! ## Sizes -/

theorem sizeOf_entry {fields : List (String × QueryInput)} {entry : String × QueryInput} (hentry : entry ∈ fields)
    (plain : Bool) : sizeOf entry.2 < sizeOf (QueryInput.object plain fields) := by
  have hsize := List.sizeOf_lt_of_mem hentry
  have hpair : sizeOf entry = 1 + sizeOf entry.1 + sizeOf entry.2 := rfl
  rw [QueryInput.object.sizeOf_spec]
  omega

theorem sizeOf_item {items : List QueryInput} {item : QueryInput} (hitem : item ∈ items) :
    sizeOf item < sizeOf (QueryInput.array items) := by
  have hsize := List.sizeOf_lt_of_mem hitem
  rw [QueryInput.array.sizeOf_spec]
  omega

/-! ## Predicates and what they say -/

section Reading

variable {runtime : JsRuntime} {dataset : CompiledDataset}

/-- Predicates that all hold exactly when a statement does. -/
def ReadAs (runtime : JsRuntime) (dataset : CompiledDataset) (relation : QueryRelation) (index : Nat)
    (predicates : List QueryPredicate) (statement : Prop) : Prop :=
  ∀ result, matchesEvery runtime dataset relation index predicates = .ok result → (result = true ↔ statement)

variable {relation : QueryRelation} {index : Nat}

theorem matchesEvery_append (front back : List QueryPredicate) :
    matchesEvery runtime dataset relation index (front ++ back)
      = (do if ← matchesEvery runtime dataset relation index front then matchesEvery runtime dataset relation index back
            else return false) := by
  induction front with
  | nil => rfl
  | cons child rest ih =>
      rw [List.cons_append, matchesEvery, matchesEvery, ih]
      cases matchesPredicate runtime dataset relation index child with
      | error error => rfl
      | ok holds => cases holds <;> rfl

theorem matchesEvery_singleton (child : QueryPredicate) :
    matchesEvery runtime dataset relation index [child] = matchesPredicate runtime dataset relation index child := by
  rw [matchesEvery]
  cases matchesPredicate runtime dataset relation index child with
  | error error => rfl
  | ok holds => cases holds <;> rfl

/-- Unwrapping a conjunction of one and dropping an empty one keep what it says. -/
theorem matchesOptional_combine (children : List QueryPredicate) :
    matchesOptional runtime dataset relation (combine .and children) index
      = matchesEvery runtime dataset relation index children := by
  match children with
  | [] => rfl
  | [child] => exact (matchesEvery_singleton child).symm
  | _ :: _ :: _ => rfl

theorem readAs_nil : ReadAs runtime dataset relation index [] True := by
  intro result hresult
  cases hresult
  exact iff_of_true rfl trivial

theorem readAs_append {front back : List QueryPredicate} {left right : Prop}
    (hfront : ReadAs runtime dataset relation index front left)
    (hback : ReadAs runtime dataset relation index back right) :
    ReadAs runtime dataset relation index (front ++ back) (left ∧ right) := by
  intro result hresult
  rw [matchesEvery_append] at hresult
  obtain ⟨holds, hholds, hrest⟩ := bind_eq_ok.mp hresult
  have hleft := hfront holds hholds
  cases holds with
  | false =>
      cases hrest
      exact iff_of_false Bool.false_ne_true fun h => Bool.false_ne_true (hleft.mpr h.1)
  | true => rw [hback result hrest, and_iff_right (hleft.mp rfl)]

theorem readAs_scalar (path : List String) (operator : ScalarOperator) (value : QueryValue) :
    ReadAs runtime dataset relation index [.scalar path operator value]
      (matchesScalar runtime ((dataset.row relation index).atPath path) operator value = true) := by
  intro result hresult
  rw [matchesEvery_singleton] at hresult
  cases hresult
  exact Iff.rfl

/-- Predicates that are normalized one after another. -/
theorem readAs_mapM {α : Type} {normalize : α → Normalized (List QueryPredicate)} {statement : α → Prop}
    {list : List α} {predicates : List (List QueryPredicate)} (hmap : list.mapM normalize = .ok predicates)
    (heach : ∀ entry ∈ list, ∀ read, normalize entry = .ok read →
      ReadAs runtime dataset relation index read (statement entry)) :
    ReadAs runtime dataset relation index predicates.flatten (∀ entry ∈ list, statement entry) := by
  rw [mapM_eq_ok] at hmap
  induction hmap with
  | nil =>
      rw [List.flatten_nil]
      exact fun result hresult => (readAs_nil result hresult).trans (iff_of_true trivial nofun)
  | cons hfirst _ ih =>
      rw [List.forall_mem_cons] at heach
      rw [List.flatten_cons, List.forall_mem_cons]
      exact readAs_append (heach.1 _ hfirst) (ih heach.2)

/-! ## Filters of one field -/

theorem normalizeOperator_eq_ok {field : String} {kind : Normalized ScalarKind}
    {allowed : ScalarKind → List ScalarOperator} {nullable : Bool} {path : List String} {entry : String × QueryInput}
    {predicate : QueryPredicate} (h : normalizeOperator field kind allowed nullable path entry = .ok predicate) :
    ∃ operator, scalarOperator entry.1 = some operator ∧ predicate = .scalar path operator (clone entry.2) := by
  rw [normalizeOperator] at h
  obtain ⟨operator, hoperator, h⟩ := bind_eq_ok.mp h
  obtain ⟨_, _, h⟩ := bind_eq_ok.mp h
  obtain ⟨_, _, h⟩ := bind_eq_ok.mp h
  obtain ⟨_, _, h⟩ := bind_eq_ok.mp h
  cases hread : scalarOperator entry.1 with
  | none =>
      rw [hread] at hoperator
      cases hoperator
  | some read =>
      rw [hread] at hoperator
      cases hoperator
      cases h
      exact ⟨_, rfl, rfl⟩

theorem operatorHolds_iff {value : Option QueryValue} {entry : String × QueryInput} {operator : ScalarOperator}
    (h : scalarOperator entry.1 = some operator) :
    OperatorHolds runtime value entry ↔ matchesScalar runtime value operator (clone entry.2) = true := by
  rw [OperatorHolds, h]
  constructor
  · intro hholds
    obtain ⟨_, heq, hmatches⟩ := hholds
    rw [Option.some.inj heq]
    exact hmatches
  · exact fun hmatches => ⟨operator, rfl, hmatches⟩

theorem readAs_operators {field : String} {kind : Normalized ScalarKind} {allowed : ScalarKind → List ScalarOperator}
    {nullable : Bool} {path : List String} {entries : List (String × QueryInput)} {predicates : List QueryPredicate}
    (h : entries.mapM (normalizeOperator field kind allowed nullable path) = .ok predicates) :
    ReadAs runtime dataset relation index predicates
      (OperatorsHold runtime ((dataset.row relation index).atPath path) entries) := by
  rw [mapM_eq_ok] at h
  induction h with
  | nil => exact fun result hresult => by cases hresult; exact iff_of_true rfl nofun
  | cons hfirst _ ih =>
      obtain ⟨operator, hoperator, rfl⟩ := normalizeOperator_eq_ok hfirst
      rw [OperatorsHold, List.forall_mem_cons]
      rw [operatorHolds_iff hoperator]
      exact readAs_append (readAs_scalar path operator _) ih

theorem readAs_templateId {value : QueryInput} {predicates : List QueryPredicate}
    (h : normalizeTemplateId value = .ok predicates) :
    ReadAs runtime dataset relation index predicates (∀ entry ∈ value.entries,
      OperatorsHold runtime ((dataset.row relation index).atPath ["templateId", entry.1]) entry.2.entries) := by
  rw [normalizeTemplateId] at h
  obtain ⟨fields, hfields, h⟩ := bind_eq_ok.mp h
  obtain ⟨_, _, h⟩ := bind_eq_ok.mp h
  obtain ⟨lists, hlists, h⟩ := bind_eq_ok.mp h
  cases h
  have hentries : value.entries = fields := by
    unfold QueryInput.plainEntries at hfields
    split at hfields
    · cases hfields
      rfl
    · cases hfields
  rw [hentries]
  refine readAs_mapM hlists fun entry _ read hread => ?_
  rw [normalizeTemplateScalarFilter] at hread
  obtain ⟨_, _, hread⟩ := bind_eq_ok.mp hread
  obtain ⟨_, _, hread⟩ := bind_eq_ok.mp hread
  exact readAs_operators hread

mutual

theorem readAs_walk {path : List String} : ∀ {value : QueryInput} {predicates : List QueryPredicate},
    walk path value = .ok predicates →
    ReadAs runtime dataset relation index predicates (PayloadHolds runtime (dataset.row relation index) path value)
  | .object true fields, predicates, h => by
      rw [PayloadHolds]
      exact readAs_walkEntries h

theorem readAs_walkEntries {path : List String} : ∀ {fields : List (String × QueryInput)}
    {predicates : List QueryPredicate}, walkEntries path fields = .ok predicates →
    ReadAs runtime dataset relation index predicates
      (PayloadEntriesHold runtime (dataset.row relation index) path fields)
  | [], predicates, h => by
      cases h
      exact readAs_nil
  | (name, child) :: rest, predicates, h => by
      rw [walkEntries] at h
      obtain ⟨first, hfirst, h⟩ := bind_eq_ok.mp h
      obtain ⟨others, hothers, h⟩ := bind_eq_ok.mp h
      cases h
      rw [PayloadEntriesHold]
      refine readAs_append ?_ (readAs_walkEntries hothers)
      split at hfirst
      · next hleaf =>
          rw [if_pos hleaf]
          obtain ⟨_, _, hfirst⟩ := bind_eq_ok.mp hfirst
          exact readAs_operators hfirst
      · next hleaf =>
          rw [if_neg hleaf]
          exact readAs_walk hfirst

end

theorem plainEntries_eq_ok {label : String} {value : QueryInput} {fields : List (String × QueryInput)}
    (h : value.plainEntries label = .ok fields) : value = .object true fields := by
  unfold QueryInput.plainEntries at h
  split at h
  · cases h
    rfl
  · cases h

theorem readAs_payload {value : QueryInput} {predicates : List QueryPredicate}
    (h : normalizePayloadMatch value = .ok predicates) :
    ReadAs runtime dataset relation index predicates
      (∀ entry ∈ value.entries, PayloadHolds runtime (dataset.row relation index) ["payload"] entry.2) := by
  rw [normalizePayloadMatch] at h
  obtain ⟨fields, hfields, h⟩ := bind_eq_ok.mp h
  rw [plainEntries_eq_ok hfields]
  split at h
  · next child =>
      rw [QueryInput.entries, List.forall_mem_singleton]
      exact readAs_walk h
  · cases h

theorem filterMap_of_mapM {α β : Type} {f : α → Option β} {message : String} {list : List α} {results : List β}
    (h : list.mapM (fun a => (f a).elim (.error message) .ok) = (.ok results : Normalized (List β))) :
    list.filterMap f = results := by
  rw [mapM_eq_ok] at h
  induction h with
  | nil => rfl
  | cons hfirst _ ih =>
      next a b _ _ _ =>
        cases hf : f a with
        | none =>
            rw [hf] at hfirst
            cases hfirst
        | some value =>
            rw [hf] at hfirst
            cases hfirst
            rw [List.filterMap_cons_some hf, ih]

theorem jsonPath_eq_ok {label : String} {fields : List (String × QueryInput)} {path : List String}
    (h : jsonPath label (pathEntry fields) = .ok path) : pathSegments fields = path := by
  unfold jsonPath at h
  unfold pathSegments
  generalize pathEntry fields = entry at h ⊢
  cases entry with
  | array items =>
      obtain ⟨_, _, h⟩ := bind_eq_ok.mp h
      exact filterMap_of_mapM h
  | _ => cases h

theorem readAs_field {field : String} {value : QueryInput} {predicates : List QueryPredicate}
    (h : normalizeScalarFilter relation field value = .ok predicates) :
    ReadAs runtime dataset relation index predicates
      (FieldHolds runtime relation (dataset.row relation index) field value) := by
  rw [normalizeScalarFilter] at h
  split at h
  · next hwitnesses =>
      obtain ⟨rfl, rfl⟩ := hwitnesses
      rw [normalizeContractWitnesses] at h
      obtain ⟨fields, hfields, h⟩ := bind_eq_ok.mp h
      rw [plainEntries_eq_ok hfields, FieldHolds, if_neg (by decide)]
      split at h
      · next party =>
          cases h
          rw [OperatorsHold, List.forall_mem_singleton, operatorHolds_iff rfl]
          exact readAs_scalar _ _ _
      · cases h
  · split at h
    · next hactive =>
        obtain ⟨rfl, rfl, hbool⟩ := hactive
        cases value with
        | bool active =>
            cases h
            rw [FieldHolds, operatorHolds_iff rfl]
            · exact readAs_scalar _ _ _
            · exact nofun
        | _ => cases hbool
    · obtain ⟨_, hfilter, h⟩ := bind_eq_ok.mp h
      rw [guardThat_eq_ok] at hfilter
      cases value with
      | object plain fields =>
          rw [FieldHolds]
          split at h
          · next hjson =>
              rw [if_pos hjson]
              rw [normalizeJsonFilter] at h
              obtain ⟨filter, hplain, h⟩ := bind_eq_ok.mp h
              obtain ⟨path, hpath, h⟩ := bind_eq_ok.mp h
              obtain ⟨_, _, h⟩ := bind_eq_ok.mp h
              cases plainEntries_eq_ok hplain
              rw [jsonPath_eq_ok hpath]
              exact readAs_operators h
          · next hjson =>
              rw [if_neg hjson]
              obtain ⟨_, _, h⟩ := bind_eq_ok.mp h
              exact readAs_operators h
      | _ => cases hfilter

end Reading

/-! ## What a filter that says nothing becomes -/

theorem mapM_ne_nil {α β : Type} {f : α → Normalized β} {list : List α} {results : List β} {message : String}
    {result : Unit} (hsome : guardThat (!list.isEmpty) message = (.ok result : Normalized Unit))
    (h : list.mapM f = .ok results) : results ≠ [] := by
  rw [guardThat_eq_ok, Bool.not_eq_true', List.isEmpty_eq_false_iff] at hsome
  rw [mapM_eq_ok] at h
  intro hnil
  rw [hnil] at h
  cases h
  exact hsome rfl

theorem normalizeTemplateId_eq_nil {value : QueryInput} {predicates : List QueryPredicate}
    (h : normalizeTemplateId value = .ok predicates) : predicates = [] ↔ value.entries = [] := by
  rw [normalizeTemplateId] at h
  obtain ⟨fields, hfields, h⟩ := bind_eq_ok.mp h
  obtain ⟨_, _, h⟩ := bind_eq_ok.mp h
  obtain ⟨lists, hlists, h⟩ := bind_eq_ok.mp h
  cases h
  rw [plainEntries_eq_ok hfields, QueryInput.entries]
  rw [mapM_eq_ok] at hlists
  cases hlists with
  | nil => exact iff_of_true rfl rfl
  | cons hfirst _ =>
      rw [normalizeTemplateScalarFilter] at hfirst
      obtain ⟨_, _, hfirst⟩ := bind_eq_ok.mp hfirst
      obtain ⟨_, hsome, hfirst⟩ := bind_eq_ok.mp hfirst
      refine iff_of_false ?_ (List.cons_ne_nil _ _)
      rw [List.flatten_cons]
      exact fun hnil => mapM_ne_nil hsome hfirst (List.append_eq_nil_iff.mp hnil).1

mutual

theorem walk_eq_nil {path : List String} : ∀ {value : QueryInput} {predicates : List QueryPredicate},
    walk path value = .ok predicates → (predicates = [] ↔ hasLeaf value = false)
  | .object true fields, predicates, h => by
      rw [hasLeaf]
      exact walkEntries_eq_nil h

theorem walkEntries_eq_nil {path : List String} : ∀ {fields : List (String × QueryInput)}
    {predicates : List QueryPredicate}, walkEntries path fields = .ok predicates →
    (predicates = [] ↔ anyLeaf fields = false)
  | [], predicates, h => by
      cases h
      exact iff_of_true rfl rfl
  | (name, child) :: rest, predicates, h => by
      rw [walkEntries] at h
      obtain ⟨first, hfirst, h⟩ := bind_eq_ok.mp h
      obtain ⟨others, hothers, h⟩ := bind_eq_ok.mp h
      cases h
      rw [anyLeaf, List.append_eq_nil_iff, walkEntries_eq_nil hothers, Bool.or_eq_false_iff, Bool.or_eq_false_iff]
      refine and_congr_left fun _ => ?_
      split at hfirst
      · next hleaf =>
          rw [normalizePayloadScalarFilter] at hfirst
          obtain ⟨_, hsome, hfirst⟩ := bind_eq_ok.mp hfirst
          refine iff_of_false (mapM_ne_nil hsome hfirst) ?_
          exact fun h => Bool.noConfusion (hleaf.symm.trans h.1)
      · next hleaf =>
          rw [walk_eq_nil hfirst]
          exact (and_iff_right (Bool.not_eq_true _ ▸ hleaf)).symm

end

theorem normalizePayloadMatch_eq_nil {value : QueryInput} {predicates : List QueryPredicate}
    (h : normalizePayloadMatch value = .ok predicates) :
    predicates = [] ↔ (value.entries.all fun pattern => !hasLeaf pattern.2) = true := by
  rw [normalizePayloadMatch] at h
  obtain ⟨fields, hfields, h⟩ := bind_eq_ok.mp h
  rw [plainEntries_eq_ok hfields]
  split at h
  · next child =>
      rw [walk_eq_nil h, QueryInput.entries, List.all_cons, List.all_nil, Bool.and_true, Bool.not_eq_true']
  · cases h

theorem normalizeScalarFilter_ne_nil {relation : QueryRelation} {field : String} {value : QueryInput}
    {predicates : List QueryPredicate} (h : normalizeScalarFilter relation field value = .ok predicates) :
    predicates ≠ [] := by
  rw [normalizeScalarFilter] at h
  split at h
  · rw [normalizeContractWitnesses] at h
    obtain ⟨fields, _, h⟩ := bind_eq_ok.mp h
    split at h
    · cases h
      exact List.cons_ne_nil _ _
    · cases h
  · split at h
    · cases h
      exact List.cons_ne_nil _ _
    · obtain ⟨_, _, h⟩ := bind_eq_ok.mp h
      split at h
      · rw [normalizeJsonFilter] at h
        obtain ⟨_, _, h⟩ := bind_eq_ok.mp h
        obtain ⟨_, _, h⟩ := bind_eq_ok.mp h
        obtain ⟨_, hsome, h⟩ := bind_eq_ok.mp h
        exact mapM_ne_nil hsome h
      · obtain ⟨_, hsome, h⟩ := bind_eq_ok.mp h
        exact mapM_ne_nil hsome h

/-- The entries of an object are normalized one by one. -/
theorem normalizeEntries_cons {relation : QueryRelation} {entry : String × QueryInput}
    {rest : List (String × QueryInput)} {children : List QueryPredicate}
    (h : normalizeEntries relation (entry :: rest) = .ok children) :
    ∃ first others, normalizeEntries relation [entry] = .ok first ∧ normalizeEntries relation rest = .ok others ∧
      children = first ++ others := by
  obtain ⟨field, operand⟩ := entry
  unfold normalizeEntries at h
  obtain ⟨first, hfirst, h⟩ := bind_eq_ok.mp h
  obtain ⟨others, hothers, h⟩ := bind_eq_ok.mp h
  cases h
  refine ⟨first, others, ?_, hothers, rfl⟩
  unfold normalizeEntries
  exact bind_eq_ok.mpr ⟨first, hfirst, congrArg Except.ok (List.append_nil first)⟩

/-- What one entry becomes, branch by branch. -/
inductive EntryNormalized (relation : QueryRelation) (field : String) : QueryInput → List QueryPredicate → Prop
  | and {items : List QueryInput} {children : List QueryPredicate} (hfield : whereEntry relation field = .and)
      (hchildren : normalizeChildren relation items = .ok children) :
      EntryNormalized relation field (.array items) [.and children]
  | or {items : List QueryInput} {children : List QueryPredicate} (hfield : whereEntry relation field = .or)
      (hchildren : normalizeChildren relation items = .ok children) :
      EntryNormalized relation field (.array items) [.or children]
  | not {operand : QueryInput} {child : QueryPredicate} (hfield : whereEntry relation field = .not)
      (hchild : normalizePredicate relation operand = .ok (some child)) :
      EntryNormalized relation field operand [.not child]
  | templateId {operand : QueryInput} {children : List QueryPredicate} (hfield : whereEntry relation field = .templateId)
      (hchildren : normalizeTemplateId operand = .ok children) : EntryNormalized relation field operand children
  | payload {operand : QueryInput} {children : List QueryPredicate} (hfield : whereEntry relation field = .payload)
      (hchildren : normalizePayloadMatch operand = .ok children) : EntryNormalized relation field operand children
  | toOne {operand : QueryInput} {edge : QueryEdge} {child : QueryPredicate}
      (hfield : whereEntry relation field = .edge edge) (hone : edge.cardinality = .one)
      (hchild : normalizePredicate edge.target operand = .ok (some child)) :
      EntryNormalized relation field operand [.relation edge .one child]
  | toMany {name : String} {operand : QueryInput} {edge : QueryEdge} {quantifier : Quantifier} {child : QueryPredicate}
      (hfield : whereEntry relation field = .edge edge) (hmany : edge.cardinality = .many)
      (hname : manyQuantifier name = some quantifier)
      (hchild : normalizePredicate edge.target operand = .ok (some child)) :
      EntryNormalized relation field (.object true [(name, operand)]) [.relation edge quantifier child]
  | field {operand : QueryInput} {children : List QueryPredicate} (hfield : whereEntry relation field = .field)
      (hchildren : normalizeScalarFilter relation field operand = .ok children) :
      EntryNormalized relation field operand children

theorem required_eq_ok {message : String} {predicate : Option QueryPredicate} {child : QueryPredicate}
    (h : required message predicate = .ok child) : predicate = some child := by
  cases predicate with
  | none => cases h
  | some _ =>
      cases h
      rfl

theorem normalizeEntries_singleton {relation : QueryRelation} {field : String} {operand : QueryInput}
    {children : List QueryPredicate} (h : normalizeEntries relation [(field, operand)] = .ok children) :
    EntryNormalized relation field operand children := by
  unfold normalizeEntries at h
  obtain ⟨first, hfirst, h⟩ := bind_eq_ok.mp h
  have hchildren : first = children := by
    rw [← List.append_nil first]
    exact Except.ok.inj h
  subst hchildren
  split at hfirst
  · next hfield =>
      split at hfirst
      · obtain ⟨logical, hlogical, hfirst⟩ := bind_eq_ok.mp hfirst
        cases hfirst
        exact .and hfield hlogical
      · cases hfirst
  · next hfield =>
      split at hfirst
      · obtain ⟨logical, hlogical, hfirst⟩ := bind_eq_ok.mp hfirst
        cases hfirst
        exact .or hfield hlogical
      · cases hfirst
  · next hfield =>
      obtain ⟨predicate, hpredicate, hfirst⟩ := bind_eq_ok.mp hfirst
      obtain ⟨child, hchild, hfirst⟩ := bind_eq_ok.mp hfirst
      cases hfirst
      exact .not hfield (required_eq_ok hchild ▸ hpredicate)
  · next hfield => exact .templateId hfield hfirst
  · next hfield => exact .payload hfield hfirst
  · next edge hfield =>
      obtain ⟨predicate, hpredicate, hfirst⟩ := bind_eq_ok.mp hfirst
      cases hfirst
      unfold normalizeRelationPredicate at hpredicate
      split at hpredicate
      · split at hpredicate
        · next fields hone =>
            obtain ⟨_, _, hpredicate⟩ := bind_eq_ok.mp hpredicate
            obtain ⟨entries, hentries, hpredicate⟩ := bind_eq_ok.mp hpredicate
            obtain ⟨child, hchild, hpredicate⟩ := bind_eq_ok.mp hpredicate
            cases hpredicate
            refine .toOne hfield hone ?_
            rw [normalizePredicate, hentries]
            exact congrArg Except.ok (required_eq_ok hchild)
        · next fields hmany =>
            split at hpredicate
            · next name operand =>
                split at hpredicate
                · next quantifier hname =>
                    obtain ⟨inner, hinner, hpredicate⟩ := bind_eq_ok.mp hpredicate
                    obtain ⟨child, hchild, hpredicate⟩ := bind_eq_ok.mp hpredicate
                    cases hpredicate
                    exact .toMany hfield hmany hname (required_eq_ok hchild ▸ hinner)
                · cases hpredicate
            · cases hpredicate
      · cases hpredicate
  · next hfield =>
      obtain ⟨_, _, hfirst⟩ := bind_eq_ok.mp hfirst
      exact .field hfield hfirst

theorem combine_eq_none {kind : List QueryPredicate → QueryPredicate} {children : List QueryPredicate} :
    combine kind children = none ↔ children = [] := by
  match children with
  | [] => exact iff_of_true rfl rfl
  | [_] => exact iff_of_false nofun nofun
  | _ :: _ :: _ => exact iff_of_false nofun nofun

theorem entryNormalized_eq_nil {relation : QueryRelation} {field : String} {operand : QueryInput}
    {children : List QueryPredicate} (h : EntryNormalized relation field operand children) :
    children = [] ↔ saysNothing relation (.object true [(field, operand)]) = true := by
  rw [saysNothing, List.all_cons, List.all_nil, Bool.and_true]
  cases h with
  | templateId hfield hchildren =>
      rw [hfield, normalizeTemplateId_eq_nil hchildren]
      exact List.isEmpty_iff.symm
  | payload hfield hchildren =>
      rw [hfield, normalizePayloadMatch_eq_nil hchildren]
  | field hfield hchildren =>
      rw [hfield]
      exact iff_of_false (normalizeScalarFilter_ne_nil hchildren) Bool.false_ne_true
  | and hfield _ => rw [hfield]; exact iff_of_false (List.cons_ne_nil _ _) Bool.false_ne_true
  | or hfield _ => rw [hfield]; exact iff_of_false (List.cons_ne_nil _ _) Bool.false_ne_true
  | not hfield _ => rw [hfield]; exact iff_of_false (List.cons_ne_nil _ _) Bool.false_ne_true
  | toOne hfield _ _ => rw [hfield]; exact iff_of_false (List.cons_ne_nil _ _) Bool.false_ne_true
  | toMany hfield _ _ _ => rw [hfield]; exact iff_of_false (List.cons_ne_nil _ _) Bool.false_ne_true

theorem normalizeEntries_eq_nil {relation : QueryRelation} {fields : List (String × QueryInput)}
    {children : List QueryPredicate} (h : normalizeEntries relation fields = .ok children) :
    children = [] ↔ saysNothing relation (.object true fields) = true := by
  induction fields generalizing children with
  | nil =>
      cases h
      exact iff_of_true rfl rfl
  | cons entry rest ih =>
      obtain ⟨first, others, hfirst, hothers, rfl⟩ := normalizeEntries_cons h
      have hentry := entryNormalized_eq_nil (normalizeEntries_singleton hfirst)
      have hrest := ih hothers
      rw [saysNothing, List.all_cons, List.all_nil, Bool.and_true] at hentry
      rw [saysNothing] at hrest ⊢
      rw [List.append_eq_nil_iff, List.all_cons, Bool.and_eq_true, hentry, hrest]

/-- A filter that says nothing is dropped, and no other is. -/
theorem normalizePredicate_eq_none {relation : QueryRelation} {value : QueryInput} {predicate : Option QueryPredicate}
    (h : normalizePredicate relation value = .ok predicate) :
    predicate = none ↔ saysNothing relation value = true := by
  unfold normalizePredicate at h
  split at h
  · obtain ⟨children, hchildren, h⟩ := bind_eq_ok.mp h
    cases h
    rw [combine_eq_none, normalizeEntries_eq_nil hchildren]
  · cases h

/-! ## The entries of a filter -/

section Parts

variable {runtime : JsRuntime} {dataset : CompiledDataset}

/-! ### Connectives -/

theorem matchesEvery_toList {relation : QueryRelation} {index : Nat} (predicate : Option QueryPredicate) :
    matchesEvery runtime dataset relation index predicate.toList
      = matchesOptional runtime dataset relation predicate index := by
  cases predicate with
  | none => rfl
  | some child => exact matchesEvery_singleton child

theorem everyHolds_iff {relation : QueryRelation} {index : Nat} {items : List QueryInput} :
    EveryHolds runtime dataset relation index items ↔ ∀ item ∈ items, Holds runtime dataset relation index item := by
  induction items with
  | nil => exact iff_of_true trivial nofun
  | cons item rest ih => rw [EveryHolds, List.forall_mem_cons, ih]

theorem someHolds_iff {relation : QueryRelation} {index : Nat} {items : List QueryInput} :
    SomeHolds runtime dataset relation index items ↔ ∃ item ∈ items, Holds runtime dataset relation index item := by
  induction items with
  | nil => exact iff_of_false id nofun
  | cons item rest ih => rw [SomeHolds, List.exists_mem_cons_iff, ih]

theorem readAs_children {relation : QueryRelation} {index : Nat} {items : List QueryInput}
    {children : List QueryPredicate} (hitems : ∀ item ∈ items, Preserved runtime dataset ⟨relation, index, item⟩)
    (h : normalizeChildren relation items = .ok children) :
    ReadAs runtime dataset relation index children (EveryHolds runtime dataset relation index items) := by
  induction items generalizing children with
  | nil =>
      cases h
      exact readAs_nil
  | cons item rest ih =>
      rw [List.forall_mem_cons] at hitems
      rw [normalizeChildren] at h
      obtain ⟨first, hfirst, h⟩ := bind_eq_ok.mp h
      obtain ⟨others, hothers, h⟩ := bind_eq_ok.mp h
      cases h
      rw [EveryHolds]
      refine readAs_append ?_ (ih hitems.2 hothers)
      intro result hresult
      rw [matchesEvery_toList] at hresult
      exact hitems.1 first result hfirst hresult

/-- A disjunction holds when one of its disjuncts that say something does. -/
theorem matchesSome_iff {relation : QueryRelation} {index : Nat} {items : List QueryInput}
    {children : List QueryPredicate} {result : Bool}
    (hitems : ∀ item ∈ items, Preserved runtime dataset ⟨relation, index, item⟩)
    (h : normalizeChildren relation items = .ok children)
    (hresult : matchesSome runtime dataset relation index children = .ok result) :
    result = true ↔
      ∃ item ∈ items, saysNothing relation item = false ∧ Holds runtime dataset relation index item := by
  induction items generalizing children with
  | nil =>
      cases h
      cases hresult
      exact iff_of_false Bool.false_ne_true nofun
  | cons item rest ih =>
      rw [List.forall_mem_cons] at hitems
      rw [normalizeChildren] at h
      obtain ⟨first, hfirst, h⟩ := bind_eq_ok.mp h
      obtain ⟨others, hothers, h⟩ := bind_eq_ok.mp h
      cases h
      have hnothing := normalizePredicate_eq_none hfirst
      rw [List.exists_mem_cons_iff]
      cases first with
      | none =>
          rw [hnothing.mp rfl]
          rw [or_iff_right fun hvacuous => Bool.noConfusion hvacuous.1]
          exact ih hitems.2 hothers hresult
      | some child =>
          have hvacuous : saysNothing relation item = false := by
            rw [Bool.eq_false_iff, Ne, ← hnothing]
            exact nofun
          rw [hvacuous, and_iff_right rfl]
          rw [Option.toList_some, List.singleton_append, matchesSome] at hresult
          obtain ⟨holds, hholds, hresult⟩ := bind_eq_ok.mp hresult
          have hitem := hitems.1 (some child) holds hfirst hholds
          cases holds with
          | true =>
              cases hresult
              exact iff_of_true rfl (.inl (hitem.mp rfl))
          | false =>
              rw [or_iff_right fun hholds => Bool.noConfusion (hitem.mpr hholds)]
              exact ih hitems.2 hothers hresult

/-! ### Edges -/

theorem matchesRelation_eq_ok {relation : QueryRelation} {index : Nat} {edge : QueryEdge} {quantifier : Quantifier}
    {child : QueryPredicate} {result : Bool}
    (h : matchesPredicate runtime dataset relation index (.relation edge quantifier child) = .ok result) :
    ∃ related results, relatedQueryRows dataset edge index = .ok related ∧
      List.Forall₂ (fun target holds => matchesPredicate runtime dataset edge.target target child = .ok holds)
        related results ∧ result = quantifier.holds results := by
  rw [matchesPredicate] at h
  split at h
  · cases h
  · obtain ⟨related, hrelated, h⟩ := bind_eq_ok.mp h
    obtain ⟨results, hresults, h⟩ := bind_eq_ok.mp h
    cases h
    exact ⟨related, results, hrelated, mapM_eq_ok.mp hresults, rfl⟩

theorem leadsTo_iff {edge : QueryEdge} {index : Nat} {related : List Nat}
    (h : relatedQueryRows dataset edge index = .ok related) {target : Nat} :
    LeadsTo dataset edge index target ↔ target ∈ related := by
  rw [LeadsTo, h]
  constructor
  · intro hleads
    obtain ⟨_, heq, hmem⟩ := hleads
    exact Except.ok.inj heq ▸ hmem
  · exact fun hmem => ⟨related, rfl, hmem⟩

/-- A to-one edge leads to at most one row. -/
theorem related_length_le_one {edge : QueryEdge} (hone : edge.cardinality = .one) {index : Nat} {related : List Nat}
    (h : relatedQueryRows dataset edge index = .ok related) : related.length ≤ 1 := by
  unfold relatedQueryRows at h
  split at h
  · cases h
  · split at h
    · cases h
    · dsimp only at h
      split at h
      · cases h
        exact Nat.zero_le 1
      · cases h
        cases hget : (dataset.buckets edge).get (compositeKey (dataset.sourceValues edge index)) with
        | none => exact Nat.zero_le 1
        | some targets => exact dataset.toOne hone hget

theorem any_iff_exists {statement : Nat → Prop} {related : List Nat} {results : List Bool}
    (h : List.Forall₂ (fun target holds => holds = true ↔ statement target) related results) :
    results.any id = true ↔ ∃ target ∈ related, statement target := by
  induction h with
  | nil => exact iff_of_false Bool.false_ne_true nofun
  | cons hfirst _ ih => rw [List.any_cons, Bool.or_eq_true, id, hfirst, ih, List.exists_mem_cons_iff]

theorem all_iff_forall {statement : Nat → Prop} {related : List Nat} {results : List Bool}
    (h : List.Forall₂ (fun target holds => holds = true ↔ statement target) related results) :
    results.all id = true ↔ ∀ target ∈ related, statement target := by
  induction h with
  | nil => exact iff_of_true rfl nofun
  | cons hfirst _ ih => rw [List.all_cons, Bool.and_eq_true, id, hfirst, ih, List.forall_mem_cons]

/-- What a quantifier says of the rows that an edge leads to. -/
def Quantified (quantifier : Quantifier) (leads statement : Nat → Prop) : Prop :=
  match quantifier with
  | .one | .some => ∃ target, leads target ∧ statement target
  | .none => ¬ ∃ target, leads target ∧ statement target
  | .every => ∀ target, leads target → statement target

theorem matchesRelation_iff {relation : QueryRelation} {index : Nat} {edge : QueryEdge} {quantifier : Quantifier}
    {child : QueryPredicate} {result : Bool} {statement : Nat → Prop}
    (hone : quantifier = .one → edge.cardinality = .one)
    (h : matchesPredicate runtime dataset relation index (.relation edge quantifier child) = .ok result)
    (hchild : ∀ target, LeadsTo dataset edge index target → ∀ holds,
      matchesPredicate runtime dataset edge.target target child = .ok holds → (holds = true ↔ statement target)) :
    result = true ↔ Quantified quantifier (LeadsTo dataset edge index) statement := by
  obtain ⟨related, results, hrelated, hresults, rfl⟩ := matchesRelation_eq_ok h
  have hread : List.Forall₂ (fun target holds => holds = true ↔ statement target) related results :=
    (forall₂_with_mem hresults).imp fun target holds h =>
      hchild target ((leadsTo_iff hrelated).mpr h.1) holds h.2
  have hleads : ∀ target, LeadsTo dataset edge index target ↔ target ∈ related := fun target => leadsTo_iff hrelated
  simp only [Quantified, hleads]
  cases quantifier with
  | one =>
      rw [← any_iff_exists hread]
      have hlength := hread.length_eq ▸ related_length_le_one (hone rfl) hrelated
      -- There is at most one row, so the first is any.
      match results, hlength with
      | [], _ => exact Iff.rfl
      | [holds], _ => rw [List.any_cons, List.any_nil, Bool.or_false]; exact Iff.rfl
  | some => exact any_iff_exists hread
  | none => rw [← any_iff_exists hread, Quantifier.holds, Bool.not_eq_true', Bool.not_eq_true]
  | every => exact all_iff_forall hread

/-! ### Entries -/

theorem entriesHold_cons {relation : QueryRelation} {index : Nat} {entry : String × QueryInput}
    {rest : List (String × QueryInput)} :
    EntriesHold runtime dataset relation index (entry :: rest) =
      (EntriesHold runtime dataset relation index [entry] ∧ EntriesHold runtime dataset relation index rest) := by
  have hall := EntriesHold.eq_def runtime dataset relation index (entry :: rest)
  have hone := EntriesHold.eq_def runtime dataset relation index [entry]
  dsimp only at hall hone
  rw [hall, hone]
  exact congrArg (· ∧ _) (and_true _).symm

theorem preserved_object {relation : QueryRelation} {index : Nat} {fields : List (String × QueryInput)}
    (hentries : ∀ entry ∈ fields, Preserved runtime dataset ⟨relation, index, .object true [entry]⟩) :
    Preserved runtime dataset ⟨relation, index, .object true fields⟩ := by
  suffices ∀ children, normalizeEntries relation fields = .ok children →
      ReadAs runtime dataset relation index children (EntriesHold runtime dataset relation index fields) by
    intro predicate result hpredicate hresult
    rw [normalizePredicate] at hpredicate
    obtain ⟨children, hchildren, hpredicate⟩ := bind_eq_ok.mp hpredicate
    cases hpredicate
    rw [matchesOptional_combine] at hresult
    rw [Holds]
    exact this children hchildren result hresult
  induction fields with
  | nil =>
      intro children hchildren
      cases hchildren
      exact readAs_nil
  | cons entry rest ih =>
      intro children hchildren
      rw [List.forall_mem_cons] at hentries
      obtain ⟨first, others, hfirst, hothers, rfl⟩ := normalizeEntries_cons hchildren
      have hone : ReadAs runtime dataset relation index first (EntriesHold runtime dataset relation index [entry]) := by
        intro result hresult
        rw [← matchesOptional_combine] at hresult
        have hnormalized : normalizePredicate relation (.object true [entry]) = .ok (combine .and first) := by
          rw [normalizePredicate, hfirst]
          rfl
        have := hentries.1 _ result hnormalized hresult
        rwa [Holds] at this
      have hboth := readAs_append hone (ih hentries.2 others hothers)
      rwa [← entriesHold_cons] at hboth

/-- What an entry becomes says what the entry does, when that goes for the filters in its operand. -/
theorem preserved_entry {relation : QueryRelation} {index : Nat} {field : String} {operand : QueryInput}
    (hoperands : ∀ part, Operand dataset ⟨relation, index, .object true [(field, operand)]⟩ part →
      Preserved runtime dataset part)
    (hcovered : Covered runtime dataset ⟨relation, index, .object true [(field, operand)]⟩) :
    Preserved runtime dataset ⟨relation, index, .object true [(field, operand)]⟩ := by
  intro predicate result hpredicate hresult
  have hanswered : Answered runtime dataset ⟨relation, index, .object true [(field, operand)]⟩ :=
    ⟨predicate, result, hpredicate, hresult⟩
  rw [normalizePredicate] at hpredicate
  obtain ⟨children, hchildren, hpredicate⟩ := bind_eq_ok.mp hpredicate
  cases hpredicate
  rw [matchesOptional_combine] at hresult
  rw [Holds, EntriesHold.eq_def]
  dsimp only
  rw [and_iff_left (show EntriesHold runtime dataset relation index [] from trivial)]
  cases normalizeEntries_singleton hchildren with
  | and hfield hlogical =>
      rw [matchesEvery_singleton, matchesPredicate] at hresult
      rw [hfield]
      exact readAs_children (fun item hitem => hoperands _ (.and hfield hitem)) hlogical result hresult
  | or hfield hlogical =>
      rw [matchesEvery_singleton, matchesPredicate] at hresult
      rw [hfield, matchesSome_iff (fun item hitem => hoperands _ (.or hfield hitem)) hlogical hresult]
      dsimp only
      rw [someHolds_iff]
      constructor
      · exact fun hholds => hholds.imp fun item h => ⟨h.1, h.2.2⟩
      · intro hholds
        obtain ⟨item, hitem, hholds⟩ := hholds
        by_cases hvacuous : saysNothing relation item = true
        · exact hcovered field _ rfl hfield hanswered ⟨item, hitem, hvacuous⟩
        · exact ⟨item, hitem, Bool.eq_false_iff.mpr hvacuous, hholds⟩
  | not hfield hchild =>
      rw [matchesEvery_singleton, matchesPredicate] at hresult
      obtain ⟨holds, hholds, hresult⟩ := bind_eq_ok.mp hresult
      cases hresult
      rw [hfield]
      dsimp only
      rw [← hoperands _ (.not hfield) (some _) holds hchild hholds, Bool.not_eq_true', Bool.not_eq_true]
  | templateId hfield hread =>
      rw [hfield]
      exact readAs_templateId hread result hresult
  | payload hfield hread =>
      rw [hfield]
      exact readAs_payload hread result hresult
  | toOne hfield hone hchild =>
      rw [matchesEvery_singleton] at hresult
      rw [hfield]
      dsimp only
      rw [hone]
      refine matchesRelation_iff (fun _ => hone) hresult fun target hleads holds hholds => ?_
      exact hoperands _ (.toOne hfield hone hleads) (some _) holds hchild hholds
  | toMany hfield hmany hname hchild =>
      rw [matchesEvery_singleton] at hresult
      rw [hfield]
      dsimp only
      rw [hmany]
      have hread := fun hone => matchesRelation_iff hone hresult fun target hleads holds hholds =>
        hoperands _ (.toMany hfield hmany hleads) (some _) holds hchild hholds
      unfold manyQuantifier at hname
      split at hname
      · cases hname
        exact hread nofun
      · cases hname
        exact hread nofun
      · cases hname
        exact hread nofun
      · cases hname
  | field hfield hread =>
      rw [hfield]
      exact readAs_field hread result hresult

/-- The filters in the operand of an entry are smaller than the object. -/
theorem sizeOf_operand {relation : QueryRelation} {index : Nat} {fields : List (String × QueryInput)}
    {entry : String × QueryInput} (hentry : entry ∈ fields) {part : FilterAt}
    (h : Operand dataset ⟨relation, index, .object true [entry]⟩ part) :
    sizeOf part.value < sizeOf (QueryInput.object true fields) := by
  have hsize := sizeOf_entry hentry true
  cases h with
  | and _ hitem => exact (sizeOf_item hitem).trans hsize
  | or _ hitem => exact (sizeOf_item hitem).trans hsize
  | not _ => exact hsize
  | toOne _ _ _ => exact hsize
  | toMany _ _ _ => exact (sizeOf_entry (List.mem_singleton_self _) true).trans hsize

/-- A filter is preserved where its disjunctions are covered. -/
theorem preserved_of_covered {filter : FilterAt}
    (hcovered : ∀ part, PartOf dataset filter part → Covered runtime dataset part) :
    Preserved runtime dataset filter := by
  -- By induction on the size of the filter.
  generalize hsize : sizeOf filter.value = size
  induction size using Nat.strong_induction_on generalizing filter with
  | _ size ih =>
      obtain ⟨relation, index, value⟩ := filter
      match value with
      | .object true fields =>
          refine preserved_object fun entry hentry => ?_
          have hinside : PartOf dataset ⟨relation, index, .object true fields⟩ ⟨relation, index, .object true [entry]⟩ :=
            .single (.entry hentry)
          refine preserved_entry (fun part hoperand => ?_) (hcovered _ hinside)
          refine ih _ (hsize ▸ sizeOf_operand hentry hoperand) (fun inner hinner => ?_) rfl
          exact hcovered inner (hinside.trans (.head (.operand hoperand) hinner))
      | .object false _ | .undefined | .null | .bool _ | .text _ | .date _ | .invalidDate | .bytes _ | .array _
      | .other =>
          intro predicate result hpredicate
          cases hpredicate

theorem normalizeChildren_eq_ok {relation : QueryRelation} {items : List QueryInput} {children : List QueryPredicate}
    (h : normalizeChildren relation items = .ok children) {item : QueryInput} (hitem : item ∈ items) :
    ∃ predicate, normalizePredicate relation item = .ok predicate := by
  induction items generalizing children with
  | nil => exact absurd hitem List.not_mem_nil
  | cons first rest ih =>
      rw [normalizeChildren] at h
      obtain ⟨predicate, hpredicate, h⟩ := bind_eq_ok.mp h
      obtain ⟨others, hothers, h⟩ := bind_eq_ok.mp h
      rcases List.mem_cons.mp hitem with heq | hrest
      · exact ⟨predicate, heq ▸ hpredicate⟩
      · exact ih hothers hrest

/-- A filter that says nothing holds, where it is preserved. -/
theorem holds_of_saysNothing {relation : QueryRelation} {index : Nat} {value : QueryInput}
    {predicate : Option QueryPredicate} (hpredicate : normalizePredicate relation value = .ok predicate)
    (hpreserved : Preserved runtime dataset ⟨relation, index, value⟩) (hnothing : saysNothing relation value = true) :
    Holds runtime dataset relation index value := by
  have hnone := (normalizePredicate_eq_none hpredicate).mpr hnothing
  exact (hpreserved predicate true hpredicate (hnone ▸ rfl)).mp rfl

/-- A disjunction that is preserved together with its disjuncts is covered. -/
theorem covered_of_preserved {filter : FilterAt}
    (hpreserved : ∀ part, PartOf dataset filter part → Preserved runtime dataset part) :
    Covered runtime dataset filter := by
  intro field items hvalue hfield hanswered hnothing
  obtain ⟨relation, index, value⟩ := filter
  cases hvalue
  obtain ⟨predicate, result, hpredicate, hresult⟩ := hanswered
  have hitems : ∀ item ∈ items, Preserved runtime dataset ⟨relation, index, item⟩ := fun item hitem =>
    hpreserved _ (.single (.operand (.or hfield hitem)))
  have hread := hpreserved _ .refl predicate result hpredicate hresult
  rw [normalizePredicate] at hpredicate
  obtain ⟨children, hchildren, hpredicate⟩ := bind_eq_ok.mp hpredicate
  cases hpredicate
  rw [matchesOptional_combine] at hresult
  cases normalizeEntries_singleton hchildren with
  | or _ hlogical =>
      rw [matchesEvery_singleton, matchesPredicate] at hresult
      rw [← matchesSome_iff hitems hlogical hresult, hread]
      -- The disjunct that says nothing makes the disjunction hold.
      obtain ⟨item, hitem, hvacuous⟩ := hnothing
      obtain ⟨read, hitemRead⟩ := normalizeChildren_eq_ok hlogical hitem
      have hholds := holds_of_saysNothing hitemRead (hitems item hitem) hvacuous
      rw [Holds, EntriesHold.eq_def]
      dsimp only
      rw [hfield]
      exact ⟨someHolds_iff.mpr ⟨item, hitem, hholds⟩, trivial⟩
  | and hother _ => cases hfield.symm.trans hother
  | not hother _ => cases hfield.symm.trans hother
  | templateId hother _ => cases hfield.symm.trans hother
  | payload hother _ => cases hfield.symm.trans hother
  | toOne hother _ _ => cases hfield.symm.trans hother
  | field hother _ => cases hfield.symm.trans hother

/-- Every filter that is read on the way through a filter is preserved exactly when every disjunction among them that
has a disjunct that says nothing has another one that holds. -/
theorem filters_preserved_iff (runtime : JsRuntime) (dataset : CompiledDataset) (filter : FilterAt) :
    (∀ part, PartOf dataset filter part → Preserved runtime dataset part) ↔
      ∀ part, PartOf dataset filter part → Covered runtime dataset part := by
  constructor
  · exact fun hpreserved part hpart =>
      covered_of_preserved fun inner hinner => hpreserved inner (hpart.trans hinner)
  · exact fun hcovered part hpart => preserved_of_covered fun inner hinner => hcovered inner (hpart.trans hinner)

end Parts

/-! ## A disjunct that is dropped -/

/-- One contract, which is not active. -/
def archivedContract : CompiledDataset where
  rows relation :=
    match relation with
    | .contracts => [[("contractId", .text "00"), ("active", .bool false)]]
    | _ => []
  edges _ := { complete := false, keys := .paths [] [] }
  uniqueKeys _ := []
  valid := rfl

/-- `or: [{}, { active: true }]`. -/
def emptyOrActive : QueryInput :=
  .object true [("or", .array [.object true [], .object true [("active", .bool true)]])]

/-- The empty disjunct is dropped, and a contract that it lets through is lost. -/
theorem empty_disjunct_dropped :
    normalizePredicate .contracts emptyOrActive = .ok (some (.or [.scalar ["active"] .equals (.bool true)])) ∧
      matchesPredicate plainRuntime archivedContract .contracts 0 (.or [.scalar ["active"] .equals (.bool true)])
        = .ok false ∧
      Holds plainRuntime archivedContract .contracts 0 emptyOrActive ∧
      ¬ Preserved plainRuntime archivedContract ⟨.contracts, 0, emptyOrActive⟩ := by
  have hholds : Holds plainRuntime archivedContract .contracts 0 emptyOrActive := ⟨.inl trivial, trivial⟩
  refine ⟨rfl, by decide +kernel, hholds, fun hpreserved => ?_⟩
  exact Bool.noConfusion ((hpreserved _ false rfl (by decide +kernel)).mpr hholds)

end CantonSdk.Query.Canonical
