import CantonSdk.Base.Checked
import CantonSdk.Base.Decimal
import CantonSdk.Base.KeyedMap
import CantonSdk.Query.Canonical.Schema

/-!
# Datasets

A dataset holds the rows of every relation and says for each edge how rows are joined. A row is known by
its position: the private keys of an edge stand beside the rows, at the same positions, and the index of
an edge maps a composite key to the positions of its targets.
-/

set_option linter.all false

namespace CantonSdk.Query.Canonical

open CantonSdk.Base

abbrev QueryRow := List (String × QueryValue)

/-- A public path, split at its dots. -/
abbrev QueryPath := List String

/-- `value[segment]`, where the value has that property itself. -/
def QueryValue.property (segment : String) : QueryValue → Option QueryValue
  | .object fields => (fields.find? fun field => decide (field.1 = segment)).map Prod.snd
  | .array items =>
      if segment = "length" then some (.number items.length)
      else if isCanonicalDecimal segment then items[decimalValue segment]?
      else none
  | _ => none

/-- `atPath`; none is undefined. -/
def QueryValue.atPath (value : QueryValue) : QueryPath → Option QueryValue
  | [] => some value
  | segment :: rest => (value.property segment).bind (·.atPath rest)

namespace QueryRow

def atPath (row : QueryRow) (path : QueryPath) : Option QueryValue := (QueryValue.object row).atPath path

/-- The value of a row in a composite key. JSON writes undefined there as null. -/
def keyValue (row : QueryRow) (path : QueryPath) : QueryValue := (row.atPath path).getD .null

end QueryRow

/-- Which values of the source and the target of an edge have to agree. -/
inductive EdgeKeys where
  /-- `from` and `to`. -/
  | paths (source target : List QueryPath)
  /-- `privateKeys`, by position. -/
  | privateKeys (source target : List (List QueryValue))

structure QueryEdgeLookup where
  /-- False where the marker is false. -/
  complete : Bool := true
  keys : EdgeKeys

structure QueryDataset where
  rows : QueryRelation → List QueryRow
  edges : QueryEdge → QueryEdgeLookup
  uniqueKeys : QueryRelation → List (List QueryPath)

/-- What `JSON.stringify` gets for a value of a composite key. -/
def compositeKeyValue : QueryValue → QueryValue
  | .date milliseconds => .text (toISOString milliseconds)
  | .bytes value => .array (value.map fun byte => .number byte.toNat)
  | value => value

def compositeKey (values : List QueryValue) : String :=
  stringify (.array (values.map compositeKeyValue))

/-- A value is null or undefined. -/
def hasNull (values : List QueryValue) : Bool := values.any fun value => decide (value = .null)

def datasetPaths (relation : QueryRelation) : List QueryPath :=
  (queryRelationMetadata relation).fields.map (fun field => [field])
    ++ if relation = .contracts then
      [["templateId", "packageId"], ["templateId", "moduleName"], ["templateId", "entityName"]]
    else []

def pathText (path : QueryPath) : String := ".".intercalate path

def datasetError (message : String) : QueryError := .plain ("Dataset " ++ message)

namespace QueryDataset

/-- The values of the row at this position that an edge compares with those of its targets. -/
def sourceValues (dataset : QueryDataset) (edge : QueryEdge) (index : Nat) : List QueryValue :=
  match (dataset.edges edge).keys with
  | .paths source _ =>
      source.map ((dataset.rows edge.source).getD index []).keyValue
  | .privateKeys source _ => source.getD index []

def targetValues (dataset : QueryDataset) (edge : QueryEdge) (index : Nat) : List QueryValue :=
  match (dataset.edges edge).keys with
  | .paths _ target =>
      target.map ((dataset.rows edge.target).getD index []).keyValue
  | .privateKeys _ target => target.getD index []

/-- The index of an edge: the positions of the targets that have a composite key. -/
def buckets (dataset : QueryDataset) (edge : QueryEdge) : KeyedMap String (List Nat) :=
  KeyedMap.groupBy (fun index => compositeKey (dataset.targetValues edge index))
    (List.range (dataset.rows edge.target).length)

end QueryDataset

/-! ### Validation -/

def validatePaths (relation : QueryRelation) (rows : List QueryRow) (paths : List QueryPath)
    (label : String) : Checked Unit := do
  let invalidPath (path : QueryPath) : QueryError :=
    datasetError (label ++ " path " ++ pathText path ++ " is invalid")
  checkAll (fun path => guardThat (decide (path ∈ datasetPaths relation)) (invalidPath path)) paths
  checkAll (fun row : QueryRow =>
    checkAll (fun path => guardThat (row.atPath path).isSome (invalidPath path)) paths) rows

def validateUniquePaths (relation : QueryRelation) (rows : List QueryRow) (paths : List QueryPath) :
    Checked Unit := do
  let label := relation.name ++ " unique key"
  guardThat (!paths.isEmpty) (datasetError (label ++ " is empty"))
  validatePaths relation rows paths label
  checkDistinct (fun row : QueryRow => compositeKey (paths.map row.keyValue))
    (fun _ => datasetError (label ++ " is not unique")) [] rows

def validatePrivateKeys (edge : QueryEdge) (source target : List (List QueryValue))
    (sourceRows targetRows : List QueryRow) : Checked Unit := do
  guardThat (decide (source.length = sourceRows.length))
    (datasetError (edge.label ++ " private source length differs"))
  guardThat (decide (target.length = targetRows.length))
    (datasetError (edge.label ++ " private target length differs"))
  match source ++ target with
  | [] => .ok ()
  | first :: rest =>
      guardThat (!first.isEmpty && rest.all fun key => decide (key.length = first.length))
        (datasetError (edge.label ++ " private lookup arity differs"))

def validateKeys (dataset : QueryDataset) (edge : QueryEdge) : Checked Unit :=
  match (dataset.edges edge).keys with
  | .privateKeys source target =>
      validatePrivateKeys edge source target (dataset.rows edge.source) (dataset.rows edge.target)
  | .paths source target => do
      guardThat (decide (source.length = target.length))
        (datasetError (edge.label ++ " lookup arity differs"))
      validatePaths edge.source (dataset.rows edge.source) source (edge.label ++ " source")
      validatePaths edge.target (dataset.rows edge.target) target (edge.label ++ " target")

/-- Whether every row of the source has a target. -/
def everySourceHasTarget (dataset : QueryDataset) (edge : QueryEdge) : Bool :=
  (List.range (dataset.rows edge.source).length).all fun index =>
    let values := dataset.sourceValues edge index
    !hasNull values && (dataset.buckets edge).has (compositeKey values)

def validateEdge (dataset : QueryDataset) (edge : QueryEdge) : Checked Unit := do
  validateKeys dataset edge
  if edge.cardinality = .one then
    guardThat ((dataset.buckets edge).values.all fun targets => decide (targets.length ≤ 1))
      (datasetError (edge.label ++ " has multiple to-one targets"))
    if !edge.nullable && (dataset.edges edge).complete then
      guardThat (everySourceHasTarget dataset edge) (datasetError (edge.label ++ " has no target"))

def validateDataset (dataset : QueryDataset) : Checked Unit := do
  checkAll (fun relation =>
    checkAll (validateUniquePaths relation (dataset.rows relation)) (dataset.uniqueKeys relation))
    queryRelations
  checkAll (fun relation => checkAll (validateEdge dataset) (queryRelationEdges relation)) queryRelations

/-- A dataset that has passed every check. -/
structure CompiledDataset extends QueryDataset where
  valid : validateDataset toQueryDataset = .ok ()

def createQueryDataset (input : QueryDataset) : Checked CompiledDataset :=
  match h : validateDataset input with
  | .ok () => .ok ⟨input, h⟩
  | .error error => .error error

/-- The positions of the rows that the row at this position leads to. -/
def relatedQueryRows (dataset : CompiledDataset) (edge : QueryEdge) (row : Nat) : Checked (List Nat) :=
  if (dataset.rows edge.source).length ≤ row then
    .error (.plain ("Query row does not belong to " ++ edge.source.name ++ " dataset"))
  else if (dataset.edges edge).complete = false then
    .error (.incompleteEdge edge.source.name edge.name)
  else
    let values := dataset.sourceValues edge row
    if hasNull values then .ok []
    else .ok (((dataset.buckets edge).get (compositeKey values)).getD [])

/-! ### What the checks give -/

theorem createQueryDataset_eq_ok {input : QueryDataset} {dataset : CompiledDataset}
    (h : createQueryDataset input = .ok dataset) : dataset.toQueryDataset = input := by
  unfold createQueryDataset at h
  split at h
  · obtain rfl := Except.ok.inj h
    rfl
  · cases h

theorem createQueryDataset_succeeds {input : QueryDataset} (h : validateDataset input = .ok ()) :
    ∃ dataset, createQueryDataset input = .ok dataset := by
  unfold createQueryDataset
  split
  · exact ⟨_, rfl⟩
  · rename_i herror
    rw [h] at herror
    cases herror

namespace CompiledDataset

variable (dataset : CompiledDataset)

theorem validateEdge_ok (edge : QueryEdge) : validateEdge dataset.toQueryDataset edge = .ok () := by
  obtain ⟨_, _, hedges⟩ := bind_eq_ok.mp dataset.valid
  exact checkAll_eq_ok.mp (checkAll_eq_ok.mp hedges edge.source (mem_queryRelations _)) edge
    (mem_queryRelationEdges edge)

theorem toOne {edge : QueryEdge} (hedge : edge.cardinality = .one) {key : String} {targets : List Nat}
    (h : (dataset.buckets edge).get key = some targets) : targets.length ≤ 1 := by
  obtain ⟨_, _, hrest⟩ := bind_eq_ok.mp (dataset.validateEdge_ok edge)
  rw [if_pos hedge] at hrest
  obtain ⟨_, hone, _⟩ := bind_eq_ok.mp hrest
  rw [guardThat_eq_ok, List.all_eq_true] at hone
  simpa using hone targets (KeyedMap.mem_values.mpr ⟨key, h⟩)

theorem hasTarget {edge : QueryEdge} (hedge : edge.cardinality = .one) (hnullable : edge.nullable = false)
    (hcomplete : (dataset.edges edge).complete = true) {row : Nat}
    (hrow : row < (dataset.rows edge.source).length) :
    hasNull (dataset.sourceValues edge row) = false ∧
      ∃ targets, (dataset.buckets edge).get (compositeKey (dataset.sourceValues edge row))
        = some targets := by
  obtain ⟨_, _, hrest⟩ := bind_eq_ok.mp (dataset.validateEdge_ok edge)
  rw [if_pos hedge] at hrest
  obtain ⟨_, _, hrest⟩ := bind_eq_ok.mp hrest
  rw [if_pos (by rw [hnullable, hcomplete]; rfl), guardThat_eq_ok, everySourceHasTarget,
    List.all_eq_true] at hrest
  have h := hrest row (List.mem_range.mpr hrow)
  rw [Bool.and_eq_true, Bool.not_eq_true', KeyedMap.has_iff] at h
  exact h

end CompiledDataset

/-- The rows that an edge leads to are those whose values agree. -/
theorem relatedQueryRows_eq_ok {dataset : CompiledDataset} {edge : QueryEdge} {row : Nat}
    {related : List Nat} :
    relatedQueryRows dataset edge row = .ok related ↔
      row < (dataset.rows edge.source).length ∧ (dataset.edges edge).complete = true ∧
      related = if hasNull (dataset.sourceValues edge row) then []
        else (List.range (dataset.rows edge.target).length).filter fun target =>
          decide (compositeKey (dataset.targetValues edge target)
            = compositeKey (dataset.sourceValues edge row)) := by
  rw [relatedQueryRows]
  by_cases hrow : (dataset.rows edge.source).length ≤ row
  · rw [if_pos hrow]
    constructor
    · intro h
      cases h
    · intro h
      omega
  · rw [if_neg hrow]
    by_cases hcomplete : (dataset.edges edge).complete = false
    · rw [if_pos hcomplete]
      simp [hcomplete]
    · rw [if_neg hcomplete]
      have hbucket := KeyedMap.get_groupBy
        (fun index => compositeKey (dataset.targetValues edge index))
        (List.range (dataset.rows edge.target).length)
        (compositeKey (dataset.sourceValues edge row))
      have hlookup : ((dataset.buckets edge).get
          (compositeKey (dataset.sourceValues edge row))).getD []
          = (List.range (dataset.rows edge.target).length).filter fun target =>
            decide (compositeKey (dataset.targetValues edge target)
              = compositeKey (dataset.sourceValues edge row)) := by
        rw [QueryDataset.buckets, hbucket]
        split
        · rename_i hempty
          exact hempty.symm
        · rfl
      simp only [hlookup]
      have hlt : row < (dataset.rows edge.source).length := by omega
      have htrue : (dataset.edges edge).complete = true := by simpa using hcomplete
      by_cases hnull : hasNull (dataset.sourceValues edge row) = true
      · simp [hnull, hlt, htrue, eq_comm]
      · simp [hnull, hlt, htrue, eq_comm]

end CantonSdk.Query.Canonical
