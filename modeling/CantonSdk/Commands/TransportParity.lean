import CantonSdk.Commands.Weights
import CantonSdk.DamlValues.NumericText

/-!
# Two transports

An argument of a command that the gRPC transport submits as a value of its type reads the same from the JSON of
the other transport, unless there is an instance of a class in it that the JSON mapper does not single out.
-/

set_option linter.all false

namespace CantonSdk.Commands

open CantonSdk.Base CantonSdk.DamlValues

/-! ## Arguments -/

mutual

/-- A value that is built from the classes for arguments, with labelled records and safe integers. -/
def isArgument : DamlValue → Bool
  | .unit | .date _ | .timestamp _ | .numeric _ | .party _ | .contractId _ | .enum .. | .string _ | .bool _ => true
  | .integer n => decide (-9007199254740991 ≤ n ∧ n ≤ 9007199254740991)
  | .array items => areArguments items
  | .textMap entries => entriesAreArguments entries
  | .genMap entries => pairsAreArguments entries
  | .variant _ value _ => isArgument value
  | .record fields _ =>
      decide ((fields.map Prod.fst).Nodup ∧ ∀ field ∈ fields, field.1.isEmpty = false) && entriesAreArguments fields
  | .undefined | .null | .fraction _ | .bigint _ | .object _ => false

def areArguments : List DamlValue → Bool
  | [] => true
  | item :: rest => isArgument item && areArguments rest

def entriesAreArguments : List (String × DamlValue) → Bool
  | [] => true
  | (_, value) :: rest => isArgument value && entriesAreArguments rest

def pairsAreArguments : List (DamlValue × DamlValue) → Bool
  | [] => true
  | (key, value) :: rest => (isArgument key && isArgument value) && pairsAreArguments rest

/-- There is no variant, enumeration, map, date, timestamp or contract id in the value. -/
def crosses : DamlValue → Bool
  | .variant .. | .enum .. | .textMap _ | .genMap _ | .date _ | .timestamp _ | .contractId _ => false
  | .array items => allCross items
  | .record fields _ => fieldsCross fields
  | _ => true

def allCross : List DamlValue → Bool
  | [] => true
  | item :: rest => crosses item && allCross rest

def fieldsCross : List (String × DamlValue) → Bool
  | [] => true
  | (_, value) :: rest => crosses value && fieldsCross rest

end

theorem areArguments_iff {items : List DamlValue} :
    areArguments items = true ↔ ∀ item ∈ items, isArgument item = true := by
  induction items with
  | nil => simp [areArguments]
  | cons item rest ih => simp [areArguments, ih]

theorem entriesAreArguments_iff {entries : List (String × DamlValue)} :
    entriesAreArguments entries = true ↔ ∀ entry ∈ entries, isArgument entry.2 = true := by
  induction entries with
  | nil => simp [entriesAreArguments]
  | cons entry rest ih => simp only [entriesAreArguments, Bool.and_eq_true, ih, List.forall_mem_cons]

theorem allCross_iff {items : List DamlValue} : allCross items = true ↔ ∀ item ∈ items, crosses item = true := by
  induction items with
  | nil => simp [allCross]
  | cons item rest ih => simp [allCross, ih]

theorem fieldsCross_iff {fields : List (String × DamlValue)} :
    fieldsCross fields = true ↔ ∀ field ∈ fields, crosses field.2 = true := by
  induction fields with
  | nil => simp [fieldsCross]
  | cons field rest ih => simp only [fieldsCross, Bool.and_eq_true, ih, List.forall_mem_cons]

/-! ## Parts -/

/-- The fields of a labelled record beside those of its type. -/
theorem exists_argument_plan {fields : List (String × DamlValue)}
    {descriptorFields : List (RecordField DamlTypeDescriptor)} {values : List (Option Query.Grpc.Value)}
    (hlabels : ∀ field ∈ fields, field.1.isEmpty = false)
    (hsource : sourceFields (submittedFields fields) descriptorFields = some values) :
    ∃ plan : List (RecordField DamlTypeDescriptor × DamlValue), plan.map Prod.fst = descriptorFields ∧
      descriptorFields.zip values = plan.map (fun entry => (entry.1, some (submitted entry.2))) ∧
      (plan.map fun entry => (entry.1.damlLabel, entry.2)).Perm fields := by
  have hkeys : (submittedFields fields).map Prod.fst = fields.map Prod.fst := by
    rw [submittedFields, List.map_map]
    rfl
  have hlabelled : ((submittedFields fields).all fun field => !field.1.isEmpty) = true := by
    rw [List.all_eq_true]
    intro field hfield
    rw [submittedFields, List.mem_map] at hfield
    obtain ⟨source, hmem, rfl⟩ := hfield
    rw [hlabels source hmem]
    rfl
  rw [sourceFields, if_pos hlabelled, hkeys, Option.ite_none_right_eq_some, Option.some.injEq] at hsource
  obtain ⟨⟨hnodup, hperm⟩, rfl⟩ := hsource
  have hfound : ∀ descriptorField ∈ descriptorFields, ∃ value, (descriptorField.damlLabel, value) ∈ fields := by
    intro descriptorField hmem
    have hlabel : descriptorField.damlLabel ∈ fields.map Prod.fst := hperm.mem_iff.mpr (List.mem_map_of_mem hmem)
    obtain ⟨⟨label, value⟩, hfield, rfl⟩ := List.mem_map.mp hlabel
    exact ⟨value, hfield⟩
  obtain ⟨plan, rfl, hplan⟩ := exists_beside hfound
  refine ⟨plan, rfl, ?_, ?_⟩
  · rw [List.map_map, List.zip_map']
    apply List.map_congr_left
    intro entry hentry
    have hsubmitted : (entry.1.damlLabel, some (submitted entry.2)) ∈ submittedFields fields :=
      List.mem_map_of_mem (hplan entry hentry)
    have hfind := (KeyedMap.find_eq_some (by rw [hkeys]; exact hnodup)).mpr hsubmitted
    rw [Function.comp_apply, hfind]
    rfl
  · have hnames : (plan.map fun entry => (entry.1.damlLabel, entry.2)).map Prod.fst
        = (plan.map Prod.fst).map RecordField.damlLabel := by
      rw [List.map_map, List.map_map]
      rfl
    have hdistinct : (plan.map fun entry => (entry.1.damlLabel, entry.2)).Nodup := by
      apply List.Nodup.of_map Prod.fst
      rw [hnames, ← hperm.nodup_iff]
      exact hnodup
    refine (List.subperm_of_subset hdistinct ?_).perm_of_length_le ?_
    · intro entry hentry
      obtain ⟨source, hsource, rfl⟩ := List.mem_map.mp hentry
      exact hplan source hsource
    · have hlengths := hperm.length_eq
      rw [List.length_map, List.length_map, List.length_map] at hlengths
      rw [List.length_map, hlengths]

/-- A value of the host's classes is printed. -/
theorem mapJsonValue_printed {value : DamlValue} (h : isArgument value = true) : mapJsonValue value ≠ .undefined := by
  cases value with
  | undefined => cases h
  | _ =>
      rw [mapJsonValue]
      exact nofun

theorem printed_fields {fields : List (String × DamlValue)} (h : ∀ field ∈ fields, isArgument field.2 = true) :
    printedProperties (mapJsonFields fields) = mapJsonFields fields := by
  rw [printedProperties, List.filter_eq_self, mapJsonFields_eq]
  intro property hproperty
  obtain ⟨field, hfield, rfl⟩ := List.mem_map.mp hproperty
  have hprinted := mapJsonValue_printed (h field hfield)
  split
  · exact absurd ‹_› hprinted
  · rfl

/-- A variant has another property than the JSON of one. -/
theorem not_variant_names (constructorName : String) (value : DamlValue) (variantId : Option TemplateId) :
    ¬ ((printedProperties [("constructorName", .string constructorName), ("value", value),
      ("variantId", templateIdObject variantId)]).map Prod.fst).Perm ["tag", "value"] := by
  intro hperm
  have hname : "constructorName" ∈ ["tag", "value"] := by
    rw [← hperm.mem_iff]
    exact List.mem_map_of_mem (List.mem_filter.mpr ⟨List.mem_cons_self, rfl⟩)
  revert hname
  decide

/-- The text of an integer has its meaning. -/
theorem int64Meaning_toString (n : Int) : int64Meaning (toString n) = int64InRange n := by
  rw [int64Meaning, signedDecimal_toString, int64InRange]
  by_cases hrange : -9223372036854775808 ≤ n ∧ n ≤ 9223372036854775807
  · rw [if_pos hrange, Option.filter_some, decide_eq_true hrange]
    rfl
  · rw [if_neg hrange, Option.filter_some, decide_eq_false hrange]
    rfl

section Parts

variable {denote : Query.Grpc.Value → DamlTypeDescriptor → Option Meaning}
  {read : DamlValue → DamlTypeDescriptor → Option Meaning}
  (h : ∀ {value : DamlValue} {descriptor : DamlTypeDescriptor} {meaning : Meaning}, isArgument value = true →
    denote (submitted value) descriptor = some meaning →
      (read (mapJsonValue value) descriptor = some meaning ↔ crosses value = true))

include h

theorem crosses_list {items : List DamlValue} {element : DamlTypeDescriptor} {meanings : List Meaning}
    (harguments : areArguments items = true)
    (hmeanings : readAll (denote · element) (items.map submitted) = some meanings) :
    readAll (read · element) (mapJsonItems items) = some meanings ↔ allCross items = true := by
  rw [areArguments_iff] at harguments
  rw [readAll_eq_some, List.forall₂_map_left_iff] at hmeanings
  rw [mapJsonItems_eq, readAll_eq_some, List.forall₂_map_left_iff, allCross_iff]
  induction hmeanings with
  | nil => simp
  | cons hfirst _ ih =>
      rw [List.forall_mem_cons] at harguments
      rw [List.forall₂_cons, List.forall_mem_cons, h harguments.1 hfirst, ih harguments.2]

theorem crosses_record {fields : List (String × DamlValue)} {descriptorFields : List (RecordField DamlTypeDescriptor)}
    {values : List (Option Query.Grpc.Value)} {meanings : List Meaning}
    (hnodup : (fields.map Prod.fst).Nodup) (hlabels : ∀ field ∈ fields, field.1.isEmpty = false)
    (harguments : entriesAreArguments fields = true)
    (hsource : sourceFields (submittedFields fields) descriptorFields = some values)
    (hmeanings : readAll (denoteField denote) (descriptorFields.zip values) = some meanings) :
    readJsonValue read (.object (mapJsonFields fields)) (.record descriptorFields) = some (.record meanings) ↔
      fieldsCross fields = true := by
  rw [entriesAreArguments_iff] at harguments
  obtain ⟨plan, rfl, hzip, hperm⟩ := exists_argument_plan hlabels hsource
  rw [hzip, readAll_eq_some, List.forall₂_map_left_iff] at hmeanings
  have hkeys : (mapJsonFields fields).map Prod.fst = fields.map Prod.fst := by
    rw [mapJsonFields_eq, List.map_map]
    rfl
  have hfield : ∀ entry ∈ plan, (entry.1.damlLabel, entry.2) ∈ fields :=
    fun entry hentry => hperm.mem_iff.mp (List.mem_map_of_mem hentry)
  have hfind : ∀ entry ∈ plan, (mapJsonFields fields).find? (fun property => decide (property.1 = entry.1.damlLabel))
      = some (entry.1.damlLabel, mapJsonValue entry.2) := by
    intro entry hentry
    rw [KeyedMap.find_eq_some (by rw [hkeys]; exact hnodup), mapJsonFields_eq, List.mem_map]
    exact ⟨_, hfield entry hentry, rfl⟩
  have hobject : ((mapJsonFields fields).map Prod.fst).Nodup ∧
      ∀ property ∈ mapJsonFields fields, property.1 ∈ (plan.map Prod.fst).map RecordField.damlLabel := by
    refine ⟨by rw [hkeys]; exact hnodup, ?_⟩
    intro property hproperty
    have hlabel : property.1 ∈ fields.map Prod.fst := by
      rw [← hkeys]
      exact List.mem_map_of_mem hproperty
    rw [← (hperm.map Prod.fst).mem_iff, List.map_map] at hlabel
    rw [List.map_map]
    exact hlabel
  have hcross : fieldsCross fields = true ↔ ∀ entry ∈ plan, crosses entry.2 = true := by
    rw [fieldsCross_iff]
    constructor
    · exact fun hall entry hentry => hall _ (hfield entry hentry)
    · intro hall field hmem
      obtain ⟨entry, hentry, rfl⟩ := List.mem_map.mp (hperm.mem_iff.mpr hmem)
      exact hall entry hentry
  have hread : readJsonValue read (.object (mapJsonFields fields)) (.record (plan.map Prod.fst))
      = (readAll (readField read (mapJsonFields fields)) (plan.map Prod.fst)).map .record := by
    rw [readJsonValue, printed_fields harguments, if_pos hobject]
  rw [hread, hcross, Option.map_eq_some_iff]
  simp only [Meaning.record.injEq, exists_eq_right]
  rw [readAll_eq_some, List.forall₂_map_left_iff]
  have hstep : ∀ entry ∈ plan, ∀ meaning, denoteField denote (entry.1, some (submitted entry.2)) = some meaning →
      (readField read (mapJsonFields fields) entry.1 = some meaning ↔ crosses entry.2 = true) := by
    intro entry hentry meaning hmeaning
    rw [readField, hfind entry hentry]
    exact h (harguments _ (hfield entry hentry)) hmeaning
  clear hread hcross hobject hfind hfield hkeys hperm hzip hsource
  induction hmeanings with
  | nil => simp
  | cons hfirst _ ih =>
      rw [List.forall_mem_cons] at hstep
      rw [List.forall₂_cons, List.forall_mem_cons]
      exact and_congr (hstep.1 _ hfirst) (ih hstep.2)

omit h in
/-- A text map is read as one with the single key `entries`, which holds more scalars than it does. -/
theorem not_reads_textMap
    (hread : ∀ {json : DamlValue} {descriptor : DamlTypeDescriptor} {meaning : Meaning},
      read json descriptor = some meaning → jsonWeight json ≤ weight meaning)
    (hdenote : ∀ {value : Query.Grpc.Value} {descriptor : DamlTypeDescriptor} {meaning : Meaning},
      denote value descriptor = some meaning → weight meaning = valueWeight value)
    {entries : List (String × DamlValue)} {element : DamlTypeDescriptor} {meanings : List (String × Meaning)}
    (hmeanings : readAll (denoteEntry denote element) (submittedFields entries) = some meanings) :
    readJsonValue read (mapJsonValue (.textMap entries)) (.textMap element) ≠ some (.textMap meanings) := by
  intro hjson
  have hmeaning : weight (.textMap meanings) = valueWeight (.textMap (submittedFields entries)) := by
    rw [weight, valueWeight, entriesWeight_eq, partsWeight_eq, List.map_map]
    refine (sum_eq_of_forall₂ (readAll_eq_some.mp hmeanings) ?_).symm
    intro entry meaning hentry
    obtain ⟨inner, hinner, rfl⟩ := Option.map_eq_some_iff.mp hentry
    exact weight_part denote hdenote hinner
  have hlength := (readAll_eq_some.mp hmeanings).length_eq
  have hkeys : ((printedProperties [("entries", DamlValue.array (mapJsonEntries entries))]).map Prod.fst).Nodup :=
    List.nodup_singleton _
  rw [mapJsonValue, readJsonValue, if_pos hkeys] at hjson
  obtain ⟨results, hresults, heq⟩ := Option.map_eq_some_iff.mp hjson
  obtain rfl := Meaning.textMap.inj heq
  have hsingle := (readAll_eq_some.mp hresults).length_eq
  change 1 = results.length at hsingle
  rw [readAll_eq_some] at hresults
  cases hresults with
  | @cons _ result _ others hfirst hothers =>
      cases hothers
      obtain ⟨inner, hinner, rfl⟩ := Option.map_eq_some_iff.mp hfirst
      have hleast := hread hinner
      have hentries := weight_entries entries
      rw [submittedFields, List.length_map] at hlength
      rw [jsonWeight] at hleast
      rw [weight, entriesWeight, entriesWeight, valueWeight] at hmeaning
      omega

theorem crosses_value
    (hread : ∀ {json : DamlValue} {descriptor : DamlTypeDescriptor} {meaning : Meaning},
      read json descriptor = some meaning → jsonWeight json ≤ weight meaning)
    (hdenote : ∀ {value : Query.Grpc.Value} {descriptor : DamlTypeDescriptor} {meaning : Meaning},
      denote value descriptor = some meaning → weight meaning = valueWeight value)
    {value : DamlValue} {descriptor : DamlTypeDescriptor} {meaning : Meaning} (hargument : isArgument value = true)
    (hmeaning : denoteValue denote (submitted value) descriptor = some meaning) :
    readJsonValue read (mapJsonValue value) descriptor = some meaning ↔ crosses value = true := by
  cases value with
  | undefined | null | fraction | bigint | object => cases hargument
  | unit =>
      change denoteValue denote .unit descriptor = some meaning at hmeaning
      unfold denoteValue at hmeaning
      split at hmeaning <;> try cases ‹Query.Grpc.Value.unit = _›
      · exact iff_of_true hmeaning rfl
      · cases hmeaning
  | bool value =>
      change denoteValue denote (.bool value) descriptor = some meaning at hmeaning
      unfold denoteValue at hmeaning
      split at hmeaning <;> try cases ‹Query.Grpc.Value.bool _ = _›
      · exact iff_of_true hmeaning rfl
      · cases hmeaning
  | string value =>
      change denoteValue denote (.text value) descriptor = some meaning at hmeaning
      unfold denoteValue at hmeaning
      split at hmeaning <;> try cases ‹Query.Grpc.Value.text _ = _›
      · exact iff_of_true hmeaning rfl
      · cases hmeaning
  | party value =>
      change denoteValue denote (.party value) descriptor = some meaning at hmeaning
      unfold denoteValue at hmeaning
      split at hmeaning <;> try cases ‹Query.Grpc.Value.party _ = _›
      · exact iff_of_true hmeaning rfl
      · cases hmeaning
  | numeric value =>
      change denoteValue denote (.numeric value) descriptor = some meaning at hmeaning
      unfold denoteValue at hmeaning
      split at hmeaning <;> try cases ‹Query.Grpc.Value.numeric _ = _›
      · exact iff_of_true hmeaning rfl
      · cases hmeaning
  | integer n =>
      change denoteValue denote (.int64 (toString n)) descriptor = some meaning at hmeaning
      unfold denoteValue at hmeaning
      split at hmeaning <;> try cases ‹Query.Grpc.Value.int64 _ = _›
      · refine iff_of_true ?_ rfl
        rw [int64Meaning_toString] at hmeaning
        exact hmeaning
      · cases hmeaning
  | date daysSinceEpoch =>
      change denoteValue denote (.date daysSinceEpoch) descriptor = some meaning at hmeaning
      unfold denoteValue at hmeaning
      split at hmeaning <;> try cases ‹Query.Grpc.Value.date _ = _›
      · exact iff_of_false nofun nofun
      · cases hmeaning
  | timestamp microsecondsSinceEpoch =>
      change denoteValue denote (.timestamp microsecondsSinceEpoch) descriptor = some meaning at hmeaning
      unfold denoteValue at hmeaning
      split at hmeaning <;> try cases ‹Query.Grpc.Value.timestamp _ = _›
      · exact iff_of_false nofun nofun
      · cases hmeaning
  | contractId value =>
      change denoteValue denote (.contractId value) descriptor = some meaning at hmeaning
      unfold denoteValue at hmeaning
      split at hmeaning <;> try cases ‹Query.Grpc.Value.contractId _ = _›
      · exact iff_of_false nofun nofun
      · cases hmeaning
  | enum constructorName enumId =>
      change denoteValue denote (.enum constructorName) descriptor = some meaning at hmeaning
      unfold denoteValue at hmeaning
      split at hmeaning <;> try cases ‹Query.Grpc.Value.enum _ = _›
      · exact iff_of_false nofun nofun
      · cases hmeaning
  | variant constructorName value variantId =>
      change denoteValue denote (.variant constructorName (some (submitted value))) descriptor = some meaning at hmeaning
      unfold denoteValue at hmeaning
      split at hmeaning <;> try cases ‹Query.Grpc.Value.variant _ _ = _›
      · rename_i constructors
        refine iff_of_false ?_ nofun
        rw [mapJsonValue, readJsonValue, readVariant, if_neg (not_variant_names _ _ _)]
        exact nofun
      · cases hmeaning
  | genMap entries =>
      rw [submitted_genMap] at hmeaning
      unfold denoteValue at hmeaning
      split at hmeaning <;> try cases ‹Query.Grpc.Value.genMap _ = _›
      · refine iff_of_false ?_ nofun
        rw [mapJsonValue]
        exact nofun
      · cases hmeaning
  | textMap entries =>
      rw [submitted_textMap] at hmeaning
      unfold denoteValue at hmeaning
      split at hmeaning <;> try cases ‹Query.Grpc.Value.textMap _ = _›
      · rw [Option.ite_none_right_eq_some] at hmeaning
        obtain ⟨meanings, hmeanings, rfl⟩ := Option.map_eq_some_iff.mp hmeaning.2
        exact iff_of_false (not_reads_textMap hread hdenote hmeanings) nofun
      · cases hmeaning
  | array items =>
      rw [submitted_array] at hmeaning
      unfold denoteValue at hmeaning
      split at hmeaning <;> try cases ‹Query.Grpc.Value.list _ = _›
      · obtain ⟨meanings, hmeanings, rfl⟩ := Option.map_eq_some_iff.mp hmeaning
        rw [mapJsonValue, readJsonValue, crosses, ← crosses_list h hargument hmeanings]
        simp
      · cases hmeaning
  | record fields recordId =>
      rw [submitted_record] at hmeaning
      unfold denoteValue at hmeaning
      split at hmeaning <;> try cases ‹Query.Grpc.Value.record _ = _›
      · rw [isArgument, Bool.and_eq_true, decide_eq_true_eq] at hargument
        obtain ⟨values, hvalues, hrest⟩ := Option.bind_eq_some_iff.mp hmeaning
        obtain ⟨meanings, hmeanings, rfl⟩ := Option.map_eq_some_iff.mp hrest
        rw [mapJsonValue, crosses]
        exact crosses_record h hargument.1.1 hargument.1.2 hargument.2 hvalues hmeanings
      · cases hmeaning

end Parts

theorem crosses_argument {registry : Registry} {fuel : Nat} {value : DamlValue} {descriptor : DamlTypeDescriptor}
    {meaning : Meaning} (hargument : isArgument value = true)
    (hmeaning : denote registry fuel (submitted value) descriptor = some meaning) :
    readJson registry fuel (mapJsonValue value) descriptor = some meaning ↔ crosses value = true := by
  induction fuel generalizing value descriptor meaning with
  | zero => cases hmeaning
  | succ fuel ih =>
      cases descriptor with
      | namedReference identity typeArguments =>
          obtain ⟨resolved, hresolved, hvalue⟩ := Option.bind_eq_some_iff.mp hmeaning
          rw [readJson, hresolved, Option.bind_some]
          exact ih hargument hvalue
      | _ => exact crosses_value ih weight_readJson weight_denote hargument hmeaning

/-- An argument reads the same from the JSON of it exactly when it has none of the classes that the JSON mapper
does not single out. -/
theorem reads_argument_iff {registry : Registry} {value : DamlValue} {descriptor : DamlTypeDescriptor}
    {meaning : Meaning} (hargument : isArgument value = true)
    (hmeaning : Denotes registry (submitted value) descriptor meaning) :
    ReadsJson registry (mapJsonValue value) descriptor meaning ↔ crosses value = true := by
  obtain ⟨fuel, hfuel⟩ := hmeaning
  constructor
  · intro h
    obtain ⟨fuel', hfuel'⟩ := h
    have hmore := denote_of_le (Nat.le_max_left fuel fuel') hfuel
    exact (crosses_argument hargument hmore).mp (readJson_of_le (Nat.le_max_right fuel fuel') hfuel')
  · exact fun h => ⟨fuel, (crosses_argument hargument hfuel).mpr h⟩

/-! ## Commands -/

/-- What a command asks for. -/
inductive CommandMeaning
  | create (templateId : TemplateId) (createArguments : Meaning)
  | exercise (templateId : TemplateId) (contractId choice : String) (choiceArgument : Meaning)
  | exerciseByKey (templateId : TemplateId) (contractKey : Meaning) (choice : String) (choiceArgument : Meaning)
  | createAndExercise (templateId : TemplateId) (createArguments : Meaning) (choice : String)
      (choiceArgument : Meaning)

/-- The types of a template, of its key and of a choice. -/
structure CommandTypes where
  createArguments : DamlTypeDescriptor
  contractKey : DamlTypeDescriptor
  choiceArgument : DamlTypeDescriptor

def GrpcRecord.value (record : GrpcRecord) : Query.Grpc.Value := .record (fieldValues record.fields)

/-- What a command of the Ledger API asks for. -/
inductive AsksGrpc (registry : Registry) (types : CommandTypes) : Command → CommandMeaning → Prop
  | create {templateId : TemplateId} {arguments : GrpcRecord} {meaning : Meaning}
      (harguments : Denotes registry arguments.value types.createArguments meaning) :
      AsksGrpc registry types (.create templateId arguments) (.create templateId meaning)
  | exercise {templateId : TemplateId} {contractId choice : String} {argument : CommandValue} {meaning : Meaning}
      (hargument : Denotes registry argument.value types.choiceArgument meaning) :
      AsksGrpc registry types (.exercise templateId contractId choice argument)
        (.exercise templateId contractId choice meaning)
  | exerciseByKey {templateId : TemplateId} {choice : String} {key argument : CommandValue}
      {keyMeaning meaning : Meaning} (hkey : Denotes registry key.value types.contractKey keyMeaning)
      (hargument : Denotes registry argument.value types.choiceArgument meaning) :
      AsksGrpc registry types (.exerciseByKey templateId key choice argument)
        (.exerciseByKey templateId keyMeaning choice meaning)
  | createAndExercise {templateId : TemplateId} {choice : String} {arguments : GrpcRecord} {argument : CommandValue}
      {createMeaning meaning : Meaning}
      (harguments : Denotes registry arguments.value types.createArguments createMeaning)
      (hargument : Denotes registry argument.value types.choiceArgument meaning) :
      AsksGrpc registry types (.createAndExercise templateId arguments choice argument)
        (.createAndExercise templateId createMeaning choice meaning)

/-- What the JSON of a command asks for. -/
inductive AsksJson (registry : Registry) (types : CommandTypes) : DamlValue → CommandMeaning → Prop
  | create {text : String} {templateId : TemplateId} {arguments : DamlValue} {meaning : Meaning}
      (htemplate : readTemplateId text = some templateId)
      (harguments : ReadsJson registry arguments types.createArguments meaning) :
      AsksJson registry types
        (.object [("CreateCommand", .object [("templateId", .string text), ("createArguments", arguments)])])
        (.create templateId meaning)
  | exercise {text contractId choice : String} {templateId : TemplateId} {argument : DamlValue} {meaning : Meaning}
      (htemplate : readTemplateId text = some templateId)
      (hargument : ReadsJson registry argument types.choiceArgument meaning) :
      AsksJson registry types
        (.object [("ExerciseCommand", .object [("templateId", .string text), ("contractId", .string contractId),
          ("choice", .string choice), ("choiceArgument", argument)])])
        (.exercise templateId contractId choice meaning)
  | exerciseByKey {text choice : String} {templateId : TemplateId} {key argument : DamlValue}
      {keyMeaning meaning : Meaning} (htemplate : readTemplateId text = some templateId)
      (hkey : ReadsJson registry key types.contractKey keyMeaning)
      (hargument : ReadsJson registry argument types.choiceArgument meaning) :
      AsksJson registry types
        (.object [("ExerciseByKeyCommand", .object [("templateId", .string text), ("contractKey", key),
          ("choice", .string choice), ("choiceArgument", argument)])])
        (.exerciseByKey templateId keyMeaning choice meaning)
  | createAndExercise {text choice : String} {templateId : TemplateId} {arguments argument : DamlValue}
      {createMeaning meaning : Meaning} (htemplate : readTemplateId text = some templateId)
      (harguments : ReadsJson registry arguments types.createArguments createMeaning)
      (hargument : ReadsJson registry argument types.choiceArgument meaning) :
      AsksJson registry types
        (.object [("CreateAndExerciseCommand", .object [("templateId", .string text), ("createArguments", arguments),
          ("choice", .string choice), ("choiceArgument", argument)])])
        (.createAndExercise templateId createMeaning choice meaning)

/-- The values that a command carries. -/
def LedgerCommand.arguments : LedgerCommand → List DamlValue
  | .create _ createArguments => [.record createArguments.fields createArguments.recordId]
  | .exercise _ _ _ choiceArgument => [choiceArgument]
  | .exerciseByKey _ contractKey _ choiceArgument => [contractKey.1, choiceArgument]
  | .createAndExercise _ createArguments _ choiceArgument =>
      [.record createArguments.fields createArguments.recordId, choiceArgument]

def LedgerCommand.templateId : LedgerCommand → TemplateId
  | .create templateId _ => templateId.toTemplateId
  | .exercise templateId _ _ _ => templateId.toTemplateId
  | .exerciseByKey templateId _ _ _ => templateId.toTemplateId
  | .createAndExercise templateId _ _ _ => templateId.toTemplateId

/-- No part of a template id has the character that separates them. -/
def PlainTemplateId (templateId : TemplateId) : Prop :=
  ':' ∉ templateId.packageId.toList ∧ ':' ∉ templateId.moduleName.toList ∧ ':' ∉ templateId.entityName.toList

instance (templateId : TemplateId) : Decidable (PlainTemplateId templateId) :=
  inferInstanceAs (Decidable (_ ∧ _ ∧ _))

theorem readTemplateId_format {templateId : TemplateId} (h : PlainTemplateId templateId) :
    readTemplateId (formatTemplateId templateId) = some templateId := by
  obtain ⟨packageId, moduleName, entityName⟩ := templateId
  obtain ⟨hpackage, hmodule, hentity⟩ := h
  have hlist : ∀ front back : String, (front ++ ":" ++ back).toList = front.toList ++ ':' :: back.toList := by
    intro front back
    rw [String.toList_append, String.toList_append, List.append_assoc]
    rfl
  have hpair : (moduleName ++ ":" ++ entityName).toList.splitOn ':' = [moduleName.toList, entityName.toList] := by
    rw [hlist, List.splitOn_append_cons_self_of_not_mem hmodule, List.splitOn_eq_singleton hentity]
  rw [readTemplateId, formatTemplateId]
  by_cases hempty : packageId.isEmpty = true
  · obtain rfl : packageId = "" := by simpa using hempty
    rw [if_pos hempty, hpair]
    simp only [String.ofList_toList]
  · have htriple : (packageId ++ ":" ++ moduleName ++ ":" ++ entityName).toList.splitOn ':'
        = [packageId.toList, moduleName.toList, entityName.toList] := by
      have hassoc : packageId ++ ":" ++ moduleName ++ ":" ++ entityName
          = packageId ++ ":" ++ (moduleName ++ ":" ++ entityName) := by
        simp only [String.append_assoc]
      rw [hassoc, hlist, List.splitOn_append_cons_self_of_not_mem hpackage, hpair]
    rw [if_neg hempty, htriple]
    simp only [String.ofList_toList]

/-- A command whose message over gRPC asks for something asks for the same over JSON exactly when none of its
arguments has a variant, enumeration, map, date, timestamp or contract id in it. -/
theorem commands_agree_iff {registry : Registry} {types : CommandTypes} {command : LedgerCommand}
    {meaning : CommandMeaning} (hplain : PlainTemplateId command.templateId)
    (harguments : ∀ value ∈ command.arguments, isArgument value = true)
    (hgrpc : AsksGrpc registry types (mapGrpcLedgerCommand command) meaning) :
    AsksJson registry types (mapJsonCommand command) meaning ↔ ∀ value ∈ command.arguments, crosses value = true := by
  have htemplate := readTemplateId_format hplain
  cases command with
  | create templateId createArguments =>
      rw [LedgerCommand.arguments, List.forall_mem_singleton] at harguments ⊢
      cases hgrpc with
      | create hmeaning =>
          have hrecord := reads_argument_iff harguments hmeaning
          constructor
          · intro h
            generalize hcommand : mapJsonCommand _ = json at h
            cases h with
            | create _ hjson =>
                cases hcommand
                exact hrecord.mp hjson
          · exact fun h => .create htemplate (hrecord.mpr h)
  | exercise templateId contractId choice choiceArgument =>
      rw [LedgerCommand.arguments, List.forall_mem_singleton] at harguments ⊢
      cases hgrpc with
      | exercise hmeaning =>
          have hargument := reads_argument_iff harguments hmeaning
          constructor
          · intro h
            generalize hcommand : mapJsonCommand _ = json at h
            cases h with
            | exercise _ hjson =>
                cases hcommand
                exact hargument.mp hjson
          · exact fun h => .exercise htemplate (hargument.mpr h)
  | exerciseByKey templateId contractKey choice choiceArgument =>
      rw [LedgerCommand.arguments, List.forall_mem_cons, List.forall_mem_singleton] at harguments ⊢
      cases hgrpc with
      | exerciseByKey hkeyMeaning hmeaning =>
          have hkey := reads_argument_iff harguments.1 hkeyMeaning
          have hargument := reads_argument_iff harguments.2 hmeaning
          constructor
          · intro h
            generalize hcommand : mapJsonCommand _ = json at h
            cases h with
            | exerciseByKey _ hkeyJson hjson =>
                cases hcommand
                exact ⟨hkey.mp hkeyJson, hargument.mp hjson⟩
          · exact fun h => .exerciseByKey htemplate (hkey.mpr h.1) (hargument.mpr h.2)
  | createAndExercise templateId createArguments choice choiceArgument =>
      rw [LedgerCommand.arguments, List.forall_mem_cons, List.forall_mem_singleton] at harguments ⊢
      cases hgrpc with
      | createAndExercise hrecordMeaning hmeaning =>
          have hrecord := reads_argument_iff harguments.1 hrecordMeaning
          have hargument := reads_argument_iff harguments.2 hmeaning
          constructor
          · intro h
            generalize hcommand : mapJsonCommand _ = json at h
            cases h with
            | createAndExercise _ hrecordJson hjson =>
                cases hcommand
                exact ⟨hrecord.mp hrecordJson, hargument.mp hjson⟩
          · exact fun h => .createAndExercise htemplate (hrecord.mpr h.1) (hargument.mpr h.2)

/-- A registry without types. -/
def noTypes : Registry := fun _ _ => none

def assetTemplate : CommandTemplateId := ⟨⟨"#assets", "Main", "Asset"⟩, by decide⟩

def assetTypes : CommandTypes where
  createArguments := .record [⟨"owner", "owner", .primitive .party none⟩,
    ⟨"amount", "amount", .primitive .numeric (some 10)⟩, ⟨"lots", "lots", .list (.primitive .int64 none)⟩]
  contractKey := .primitive .unit none
  choiceArgument := .primitive .date none

def assetArguments : DamlRecord where
  fields := [("amount", .numeric "12.50"), ("lots", .array [.integer 3, .integer (-4)]), ("owner", .party "Alice")]
  recordId := none

theorem commands_agree_asset :
    AsksJson noTypes assetTypes (mapJsonCommand (.create assetTemplate assetArguments))
      (.create ⟨"#assets", "Main", "Asset"⟩
        (.record [.party "Alice", .numeric (spelledNumber "12.50" ['1', '2'] ['5', '0']), .list [.int64 3, .int64 (-4)]])) :=
  (commands_agree_iff (by decide +kernel) (by decide) (.create ⟨3, by rfl⟩)).mpr (by decide)

/-- A date is submitted over JSON as an object with the number of its days. -/
theorem date_argument_differs :
    AsksGrpc noTypes assetTypes
        (mapGrpcLedgerCommand (.exercise assetTemplate ⟨"00ab", by decide⟩ ⟨"Renew", by decide⟩ (.date 19000)))
        (.exercise ⟨"#assets", "Main", "Asset"⟩ "00ab" "Renew" (.date 19000)) ∧
      mapJsonValue (.date 19000) = .object [("daysSinceEpoch", .integer 19000)] ∧
      ¬ ∃ meaning, AsksJson noTypes assetTypes
        (mapJsonCommand (.exercise assetTemplate ⟨"00ab", by decide⟩ ⟨"Renew", by decide⟩ (.date 19000))) meaning := by
  refine ⟨.exercise ⟨1, by rfl⟩, by rw [mapJsonValue], ?_⟩
  intro h
  obtain ⟨meaning, hjson⟩ := h
  generalize hcommand : mapJsonCommand _ = json at hjson
  cases hjson with
  | exercise _ hargument =>
      cases hcommand
      obtain ⟨fuel, hfuel⟩ := hargument
      cases fuel with
      | zero => cases hfuel
      | succ fuel => cases hfuel
  | _ => simp [mapJsonCommand] at hcommand

end CantonSdk.Commands
