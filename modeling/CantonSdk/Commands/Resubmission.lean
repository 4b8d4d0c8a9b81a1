import CantonSdk.Base.Related
import CantonSdk.Commands.GrpcMapper
import CantonSdk.DamlValues.Fuel
import CantonSdk.DamlValues.MappedValues
import CantonSdk.DamlValues.NumericText

/-!
# Submitting decoded values

A value that was decoded at a type is submitted as a value of the same type with the same meaning, unless
there is something in it whose decoded form the encoder takes for something else: an int64 decodes to a
bigint and is submitted as a record without fields, a contract id decodes to a string and is submitted as
text, and the value in an optional is submitted bare.
-/

set_option linter.all false

namespace CantonSdk.Commands

open CantonSdk.Base CantonSdk.DamlValues

/-! ## Types whose labels are kept -/

mutual

/-- The property names in a descriptor equal the labels, which are distinct. -/
def keepsLabels : DamlTypeDescriptor → Bool
  | .primitive .. => true
  | .contractId contract => contractKeepsLabels contract
  | .optional element => keepsLabels element
  | .list element => keepsLabels element
  | .textMap value => keepsLabels value
  | .genMap key value => keepsLabels key && keepsLabels value
  | .record fields =>
      decide (fields.map RecordField.damlLabel).Nodup && fieldsKeepLabels fields
  | .variant constructors => constructorsKeepLabels constructors
  | .enum _ => true
  | .namedReference _ typeArguments => allKeepLabels typeArguments

def contractKeepsLabels : Option DamlTypeDescriptor → Bool
  | none => true
  | some contract => keepsLabels contract

def allKeepLabels : List DamlTypeDescriptor → Bool
  | [] => true
  | descriptor :: rest => keepsLabels descriptor && allKeepLabels rest

def fieldsKeepLabels : List (RecordField DamlTypeDescriptor) → Bool
  | [] => true
  | field :: rest =>
      (decide (field.propertyName = field.damlLabel) && !field.damlLabel.isEmpty && keepsLabels field.type)
        && fieldsKeepLabels rest

def constructorsKeepLabels : List (VariantConstructor DamlTypeDescriptor) → Bool
  | [] => true
  | candidate :: rest => keepsLabels candidate.payload && constructorsKeepLabels rest

end

/-- A registry that keeps labels wherever it is asked with arguments that keep them. -/
def RegistryKeepsLabels (registry : Registry) : Prop :=
  ∀ identity typeArguments resolved, allKeepLabels typeArguments = true →
    registry identity typeArguments = some resolved → keepsLabels resolved = true

theorem fieldsKeepLabels_iff {fields : List (RecordField DamlTypeDescriptor)} :
    fieldsKeepLabels fields = true ↔ ∀ field ∈ fields,
      (field.propertyName = field.damlLabel ∧ field.damlLabel.isEmpty = false) ∧ keepsLabels field.type = true := by
  induction fields with
  | nil => simp [fieldsKeepLabels]
  | cons field rest ih => simp [fieldsKeepLabels, ih]

theorem keepsLabels_of_constructors {constructors : List (VariantConstructor DamlTypeDescriptor)}
    (h : constructorsKeepLabels constructors = true) {found : VariantConstructor DamlTypeDescriptor}
    (hfound : found ∈ constructors) : keepsLabels found.payload = true := by
  induction constructors with
  | nil => cases hfound
  | cons candidate rest ih =>
      rw [constructorsKeepLabels, Bool.and_eq_true] at h
      rcases List.mem_cons.mp hfound with rfl | hrest
      · exact h.1
      · exact ih h.2 hrest

/-! ## Meanings that are submitted unchanged -/

mutual

/-- There is no int64, no contract id and no value of an optional. -/
def resubmits : Meaning → Bool
  | .int64 _ | .contractId _ | .present _ => false
  | .list elements => allResubmit elements
  | .textMap entries => entriesResubmit entries
  | .genMap entries => pairsResubmit entries
  | .record fields => allResubmit fields
  | .variant _ value => resubmits value
  | _ => true

def allResubmit : List Meaning → Bool
  | [] => true
  | meaning :: rest => resubmits meaning && allResubmit rest

def entriesResubmit : List (String × Meaning) → Bool
  | [] => true
  | (_, meaning) :: rest => resubmits meaning && entriesResubmit rest

def pairsResubmit : List (Meaning × Meaning) → Bool
  | [] => true
  | (key, meaning) :: rest => (resubmits key && resubmits meaning) && pairsResubmit rest

end

theorem allResubmit_iff {meanings : List Meaning} :
    allResubmit meanings = true ↔ ∀ meaning ∈ meanings, resubmits meaning = true := by
  induction meanings with
  | nil => simp [allResubmit]
  | cons meaning rest ih => simp [allResubmit, ih]

theorem entriesResubmit_iff {entries : List (String × Meaning)} :
    entriesResubmit entries = true ↔ ∀ entry ∈ entries, resubmits entry.2 = true := by
  induction entries with
  | nil => simp [entriesResubmit]
  | cons entry rest ih => simp only [entriesResubmit, Bool.and_eq_true, ih, List.forall_mem_cons]

theorem pairsResubmit_iff {entries : List (Meaning × Meaning)} :
    pairsResubmit entries = true ↔ ∀ entry ∈ entries, (resubmits entry.1 && resubmits entry.2) = true := by
  induction entries with
  | nil => simp [pairsResubmit]
  | cons entry rest ih => simp only [pairsResubmit, Bool.and_eq_true, ih, List.forall_mem_cons]

/-- A reading that is right about an entry exactly when it is good is right about a list exactly when all of
its entries are. -/
theorem readAll_iff {α β : Type} {read : α → Option β} {good : β → Prop} {list : List α} {results : List β}
    (h : List.Forall₂ (fun entry result => read entry = some result ↔ good result) list results) :
    readAll read list = some results ↔ ∀ result ∈ results, good result := by
  rw [readAll_eq_some]
  induction h with
  | nil => simp
  | cons hfirst _ ih => rw [List.forall₂_cons, List.forall_mem_cons, hfirst, ih]

/-! ## Parts -/

section Parts

variable {registry : Registry} {denote : Query.Grpc.Value → DamlTypeDescriptor → Option Meaning}
  {decode : DamlValueSource → DamlTypeDescriptor → String → Decoded DamlValue}
  (h : ∀ {value : Query.Grpc.Value} {descriptor : DamlTypeDescriptor} {meaning : Meaning} {path : String}
    {decoded : DamlValue}, keepsLabels descriptor = true → denote value descriptor = some meaning →
      decode (.protobuf value) descriptor path = .ok decoded →
        (denote (submitted decoded) descriptor = some meaning ↔ resubmits meaning = true))

include h

theorem submits_part {part : Option Query.Grpc.Value} {descriptor : DamlTypeDescriptor} {meaning : Meaning}
    {path : String} {decoded : DamlValue} (hkeeps : keepsLabels descriptor = true)
    (hmeaning : part.bind (denote · descriptor) = some meaning)
    (hdecoded : decodeRequiredProtobufValue decode part descriptor path = .ok decoded) :
    denote (submitted decoded) descriptor = some meaning ↔ resubmits meaning = true := by
  obtain ⟨value, rfl, hvalue⟩ := Option.bind_eq_some_iff.mp hmeaning
  exact h hkeeps hvalue hdecoded

theorem submits_list {elements : List Query.Grpc.Value} {element : DamlTypeDescriptor} {meanings : List Meaning}
    {path : String} {items : List DamlValue} (hkeeps : keepsLabels element = true)
    (hmeanings : readAll (denote · element) elements = some meanings)
    (hitems : mapIndexed (fun index item => decode (.protobuf item) element (indexedPath path index)) 0 elements
      = .ok items) :
    readAll (denote · element) (items.map submitted) = some meanings ↔ allResubmit meanings = true := by
  rw [allResubmit_iff]
  apply readAll_iff
  rw [List.forall₂_map_left_iff]
  refine (forall₂_beside (mapIndexed_eq_ok hitems) (readAll_eq_some.mp hmeanings)).imp ?_
  intro item meaning hboth
  obtain ⟨value, ⟨index, hdecoded⟩, hmeaning⟩ := hboth
  exact h hkeeps hmeaning hdecoded

theorem submits_textMap {entries : List (String × Option Query.Grpc.Value)} {element : DamlTypeDescriptor}
    {meanings : List (String × Meaning)} {path : String} {decoded : List (String × DamlValue)}
    (hkeeps : keepsLabels element = true)
    (hmeanings : readAll (denoteEntry denote element) entries = some meanings)
    (hdecoded : mapIndexed (decodeTextMapEntry decode element path) 0 entries = .ok decoded) :
    readAll (denoteEntry denote element) (submittedFields decoded) = some meanings ↔
      entriesResubmit meanings = true := by
  rw [entriesResubmit_iff]
  apply readAll_iff
  rw [submittedFields, List.forall₂_map_left_iff]
  refine (forall₂_beside (mapIndexed_eq_ok hdecoded) (readAll_eq_some.mp hmeanings)).imp ?_
  intro entry meaning hboth
  obtain ⟨source, ⟨index, hentry⟩, hmeaning⟩ := hboth
  obtain ⟨value, hvalue, hresult⟩ := bind_eq_ok.mp hentry
  cases hresult
  obtain ⟨inner, hinner, rfl⟩ := Option.map_eq_some_iff.mp hmeaning
  rw [← submits_part h hkeeps hinner hvalue]
  simp [denoteEntry]

theorem submits_genMap {entries : List (Option Query.Grpc.Value × Option Query.Grpc.Value)}
    {key element : DamlTypeDescriptor} {meanings : List (Meaning × Meaning)} {path : String}
    {decoded : List (DamlValue × DamlValue)} (hkey : keepsLabels key = true) (helement : keepsLabels element = true)
    (hmeanings : readAll (denotePair denote key element) entries = some meanings)
    (hdecoded : mapIndexed (decodeGenMapEntry decode key element path) 0 entries = .ok decoded) :
    readAll (denotePair denote key element)
        (decoded.map fun entry => (some (submitted entry.1), some (submitted entry.2))) = some meanings ↔
      pairsResubmit meanings = true := by
  rw [pairsResubmit_iff]
  apply readAll_iff
  rw [List.forall₂_map_left_iff]
  refine (forall₂_beside (mapIndexed_eq_ok hdecoded) (readAll_eq_some.mp hmeanings)).imp ?_
  intro entry meaning hboth
  obtain ⟨source, ⟨index, hentry⟩, hmeaning⟩ := hboth
  obtain ⟨first, hfirst, hrest⟩ := bind_eq_ok.mp hentry
  obtain ⟨second, hsecond, hresult⟩ := bind_eq_ok.mp hrest
  cases hresult
  obtain ⟨keyMeaning, hkeyMeaning, hmeaning⟩ := Option.bind_eq_some_iff.mp hmeaning
  obtain ⟨inner, hinner, rfl⟩ := Option.map_eq_some_iff.mp hmeaning
  rw [Bool.and_eq_true, ← submits_part h hkey hkeyMeaning hfirst, ← submits_part h helement hinner hsecond]
  constructor
  · intro hpair
    obtain ⟨keyMeaning', hkey', hpair⟩ := Option.bind_eq_some_iff.mp hpair
    obtain ⟨inner', hinner', heq⟩ := Option.map_eq_some_iff.mp hpair
    cases heq
    exact ⟨hkey', hinner'⟩
  · intro hpair
    exact Option.bind_eq_some_iff.mpr ⟨_, hpair.1, Option.map_eq_some_iff.mpr ⟨_, hpair.2, rfl⟩⟩

/-! ### Records -/

omit h in
/-- A decoded record: the fields of the type, their parts in the record and what these decoded to. -/
theorem exists_decoded_fields {fields : List (String × Option Query.Grpc.Value)}
    {descriptorFields : List (RecordField DamlTypeDescriptor)} {values : List (Option Query.Grpc.Value)}
    {path : String} {decoded : DamlValue} (hsource : sourceFields fields descriptorFields = some values)
    (hdecoded : decodeProtobufRecord decode fields descriptorFields path = .ok decoded) :
    ∃ results : List (String × DamlValue), decoded = .record (assigned results) none ∧
      List.Forall₂ (fun field result => result.1 = field.1.propertyName ∧
        ∃ place, decodeRequiredProtobufValue decode field.2 field.1.type place = .ok result.2)
        (descriptorFields.zip values) results ∧ values.length = descriptorFields.length := by
  rw [sourceFields] at hsource
  rw [decodeProtobufRecord] at hdecoded
  split at hsource
  · -- labelled
    rename_i hlabels
    rw [Option.ite_none_right_eq_some, Option.some.injEq] at hsource
    obtain ⟨⟨hnodup, _⟩, rfl⟩ := hsource
    rw [if_pos hlabels, if_pos hnodup] at hdecoded
    obtain ⟨results, hresults, hdecoded⟩ := bind_eq_ok.mp hdecoded
    split at hdecoded
    · cases hdecoded
    · cases hdecoded
      refine ⟨results, rfl, ?_, List.length_map ..⟩
      rw [← List.map_prod_left_eq_zip, List.forall₂_map_left_iff]
      refine (mapM_eq_ok.mp hresults).imp ?_
      intro field result hresult
      rw [decodeLabelledField] at hresult
      split at hresult
      · cases hresult
      · rename_i sourceField hfind
        obtain ⟨value, hvalue, hresult⟩ := bind_eq_ok.mp hresult
        cases hresult
        refine ⟨rfl, fieldPath path field.propertyName, ?_⟩
        rw [hfind]
        exact hvalue
  · -- positional
    rename_i hlabels
    rw [Option.ite_none_right_eq_some, Option.some.injEq] at hsource
    obtain ⟨⟨hempty, hlength⟩, rfl⟩ := hsource
    rw [if_neg hlabels, if_pos hempty, if_neg (not_not_intro hlength)] at hdecoded
    obtain ⟨results, hresults, hdecoded⟩ := bind_eq_ok.mp hdecoded
    cases hdecoded
    refine ⟨results, rfl, ?_, by rw [List.length_map, hlength]⟩
    rw [List.zip_map_right, List.forall₂_map_left_iff]
    refine (mapM_eq_ok.mp hresults).imp ?_
    intro field result hresult
    obtain ⟨value, hvalue, hresult⟩ := bind_eq_ok.mp hresult
    cases hresult
    exact ⟨rfl, _, hvalue⟩

omit h in
/-- The fields of a submitted record are found by their labels. -/
theorem sourceFields_submitted {results : List (String × DamlValue)}
    {descriptorFields : List (RecordField DamlTypeDescriptor)}
    (hnames : results.map Prod.fst = descriptorFields.map RecordField.damlLabel)
    (hnodup : (descriptorFields.map RecordField.damlLabel).Nodup)
    (hlabels : ∀ field ∈ descriptorFields, field.damlLabel.isEmpty = false) :
    sourceFields (submittedFields (assigned results)) descriptorFields
      = some (results.map fun result => some (submitted result.2)) := by
  have hkeys : (submittedFields (assigned results)).map Prod.fst = (assigned results).map Prod.fst := by
    rw [submittedFields, List.map_map]
    rfl
  have hresults : (results.map Prod.fst).Nodup := hnames ▸ hnodup
  have hperm := perm_assigned hresults
  have hlabelled : ((submittedFields (assigned results)).all fun field => !field.1.isEmpty) = true := by
    rw [List.all_eq_true]
    intro field hfield
    have hname : field.1 ∈ results.map Prod.fst := by
      rw [← (hperm.map Prod.fst).mem_iff, ← hkeys]
      exact List.mem_map_of_mem hfield
    rw [hnames] at hname
    obtain ⟨descriptorField, hmem, heq⟩ := List.mem_map.mp hname
    rw [← heq, hlabels descriptorField hmem]
    rfl
  have hdistinct : ((submittedFields (assigned results)).map Prod.fst).Nodup := by
    rw [hkeys, (hperm.map Prod.fst).nodup_iff]
    exact hresults
  rw [sourceFields, if_pos hlabelled, if_pos ⟨hdistinct, by rw [hkeys, ← hnames]; exact hperm.map _⟩]
  have hfind : ∀ result ∈ results, (submittedFields (assigned results)).find?
      (fun field => decide (field.1 = result.1)) = some (result.1, some (submitted result.2)) := by
    intro result hresult
    rw [KeyedMap.find_eq_some hdistinct, submittedFields, List.mem_map]
    exact ⟨result, hperm.mem_iff.mpr hresult, rfl⟩
  have hlist : descriptorFields.map (fun field => ((submittedFields (assigned results)).find?
      fun candidate => decide (candidate.1 = field.damlLabel)).map Prod.snd |>.join)
      = (descriptorFields.map RecordField.damlLabel).map fun label => ((submittedFields (assigned results)).find?
          fun candidate => decide (candidate.1 = label)).map Prod.snd |>.join := by
    rw [List.map_map]
    rfl
  rw [hlist, ← hnames, List.map_map]
  congr 1
  apply List.map_congr_left
  intro result hresult
  rw [Function.comp_apply, hfind result hresult]
  rfl

theorem submits_record {fields : List (String × Option Query.Grpc.Value)}
    {descriptorFields : List (RecordField DamlTypeDescriptor)} {values : List (Option Query.Grpc.Value)}
    {meanings : List Meaning} {path : String} {decoded : DamlValue}
    (hkeeps : keepsLabels (.record descriptorFields) = true)
    (hsource : sourceFields fields descriptorFields = some values)
    (hmeanings : readAll (denoteField denote) (descriptorFields.zip values) = some meanings)
    (hdecoded : decodeProtobufRecord decode fields descriptorFields path = .ok decoded) :
    denoteValue denote (submitted decoded) (.record descriptorFields) = some (.record meanings) ↔
      allResubmit meanings = true := by
  rw [keepsLabels, Bool.and_eq_true, decide_eq_true_eq, fieldsKeepLabels_iff] at hkeeps
  obtain ⟨hnodup, hkeeps⟩ := hkeeps
  obtain ⟨results, rfl, hall, hlength⟩ := exists_decoded_fields hsource hdecoded
  have hfields : (descriptorFields.zip values).map Prod.fst = descriptorFields := List.map_fst_zip hlength.ge
  obtain ⟨plan, hplan, rfl, hstep⟩ := exists_zipped hall
  have hdescriptors : plan.map (fun entry => entry.1.1) = descriptorFields := by
    rw [← hfields, ← hplan, List.map_map]
    rfl
  have hmem : ∀ entry ∈ plan, entry.1.1 ∈ descriptorFields := by
    intro entry hentry
    rw [← hdescriptors]
    exact List.mem_map_of_mem hentry
  have hnames : (plan.map Prod.snd).map Prod.fst = descriptorFields.map RecordField.damlLabel := by
    rw [← hdescriptors, List.map_map, List.map_map]
    apply List.map_congr_left
    intro entry hentry
    exact (hstep entry hentry).1.trans (hkeeps _ (hmem entry hentry)).1.1
  have hsubmitted := sourceFields_submitted hnames hnodup fun field hfield => (hkeeps field hfield).1.2
  have hzip : descriptorFields.zip ((plan.map Prod.snd).map fun result => some (submitted result.2))
      = plan.map fun entry => (entry.1.1, some (submitted entry.2.2)) := by
    rw [← hdescriptors, List.map_map, List.zip_map']
    rfl
  rw [submitted_record]
  change (sourceFields _ descriptorFields).bind _ = _ ↔ _
  rw [hsubmitted, Option.bind_some, hzip, Option.map_eq_some_iff]
  simp only [Meaning.record.injEq, exists_eq_right]
  rw [allResubmit_iff]
  apply readAll_iff
  rw [← hplan, readAll_eq_some, List.forall₂_map_left_iff] at hmeanings
  rw [List.forall₂_map_left_iff]
  refine (forall₂_with_mem hmeanings).imp ?_
  intro entry meaning hboth
  obtain ⟨place, hvalue⟩ := (hstep entry hboth.1).2
  exact submits_part h (hkeeps _ (hmem entry hboth.1)).2 hboth.2 hvalue

/-! ### All values -/

omit h in
theorem submitted_not_present {value : DamlValue} {element : DamlTypeDescriptor} {meaning : Meaning} :
    denoteValue denote (submitted value) (.optional element) ≠ some (.present meaning) := by
  intro hpresent
  have hne := submitted_ne_present value
  generalize submitted value = other at hpresent hne
  cases other with
  | optional part =>
      cases part with
      | none => cases hpresent
      | some inner => exact hne inner rfl
  | _ => cases hpresent

theorem submits_value {value : Query.Grpc.Value} {descriptor : DamlTypeDescriptor} {meaning : Meaning}
    {path : String} {decoded : DamlValue} (hkeeps : keepsLabels descriptor = true)
    (hmeaning : denoteValue denote value descriptor = some meaning)
    (hdecoded : decodeProtobufValue decode value descriptor path = .ok decoded) :
    denoteValue denote (submitted decoded) descriptor = some meaning ↔ resubmits meaning = true := by
  unfold denoteValue at hmeaning
  split at hmeaning
  case h_1 | h_2 | h_8 | h_10 =>
    -- a unit, a Boolean, a text or an empty optional
    cases hmeaning
    cases hdecoded
    exact iff_of_true rfl rfl
  case h_3 =>
    -- a bigint is submitted as a record without fields
    obtain ⟨n, _, rfl⟩ := Option.map_eq_some_iff.mp hmeaning
    obtain ⟨_, _, hint64⟩ := bind_eq_ok.mp hdecoded
    rw [decodeInt64] at hint64
    obtain ⟨integer, _, hint64⟩ := bind_eq_ok.mp hint64
    split at hint64
    · cases hint64
    · cases hint64
      exact iff_of_false nofun nofun
  case h_4 epochDay numericScale =>
    change decodeDate epochDay path = .ok decoded at hdecoded
    rw [decodeDate] at hdecoded
    split at hdecoded
    · cases hdecoded
    · cases hdecoded
      refine iff_of_true hmeaning ?_
      rw [dateMeaning, Option.ite_none_right_eq_some] at hmeaning
      cases hmeaning.2
      rfl
  case h_5 micros numericScale =>
    change decodeTimestamp micros path = .ok decoded at hdecoded
    obtain ⟨integer, _, htimestamp⟩ := bind_eq_ok.mp hdecoded
    split at htimestamp
    · cases htimestamp
    · cases htimestamp
      refine iff_of_true hmeaning ?_
      obtain ⟨_, _, rfl⟩ := Option.map_eq_some_iff.mp hmeaning
      rfl
  case h_6 text numericScale =>
    obtain ⟨whole, fraction, hparts, rfl⟩ := decodeNumeric_eq_ok hdecoded
    refine iff_of_true (numericMeaning_canonical hmeaning hparts) ?_
    rw [numericMeaning, hparts] at hmeaning
    simp only [Option.ite_none_right_eq_some] at hmeaning
    cases hmeaning.2
    rfl
  case h_7 party numericScale =>
    change decodeParty party path = .ok decoded at hdecoded
    rw [decodeParty] at hdecoded
    split at hdecoded
    · cases hdecoded
    · cases hdecoded
      refine iff_of_true hmeaning ?_
      rw [partyMeaning, Option.ite_none_left_eq_some] at hmeaning
      cases hmeaning.2
      rfl
  case h_9 =>
    -- a string is submitted as text
    cases hdecoded
    rw [contractIdMeaning, Option.ite_none_left_eq_some] at hmeaning
    cases hmeaning.2
    exact iff_of_false nofun nofun
  case h_11 inner element =>
    -- what is in an optional is submitted bare
    obtain ⟨innerMeaning, _, rfl⟩ := Option.map_eq_some_iff.mp hmeaning
    exact iff_of_false submitted_not_present nofun
  case h_12 elements element =>
    rw [keepsLabels] at hkeeps
    obtain ⟨meanings, hmeanings, rfl⟩ := Option.map_eq_some_iff.mp hmeaning
    obtain ⟨items, hitems, hdecoded⟩ := bind_eq_ok.mp hdecoded
    cases hdecoded
    rw [submitted_array, resubmits, ← submits_list h hkeeps hmeanings hitems]
    change (readAll _ _).map Meaning.list = _ ↔ _
    simp
  case h_13 entries element =>
    rw [keepsLabels] at hkeeps
    rw [Option.ite_none_right_eq_some] at hmeaning
    obtain ⟨hnodup, hmeaning⟩ := hmeaning
    obtain ⟨meanings, hmeanings, rfl⟩ := Option.map_eq_some_iff.mp hmeaning
    obtain ⟨entriesDecoded, hentries, hdecoded⟩ := bind_eq_ok.mp hdecoded
    cases hdecoded
    have hkeys : (submittedFields entriesDecoded).map Prod.fst = entries.map Prod.fst := by
      rw [← keys_of_decodedEntries hentries, submittedFields, List.map_map]
      rfl
    rw [submitted_textMap, resubmits, ← submits_textMap h hkeeps hmeanings hentries]
    change (if ((submittedFields entriesDecoded).map Prod.fst).Nodup then _ else none) = _ ↔ _
    rw [if_pos (hkeys ▸ hnodup)]
    simp
  case h_14 entries key element =>
    rw [keepsLabels, Bool.and_eq_true] at hkeeps
    obtain ⟨meanings, hmeanings, rfl⟩ := Option.map_eq_some_iff.mp hmeaning
    obtain ⟨pairs, hpairs, hdecoded⟩ := bind_eq_ok.mp hdecoded
    cases hdecoded
    rw [submitted_genMap, resubmits, ← submits_genMap h hkeeps.1 hkeeps.2 hmeanings hpairs]
    change (readAll _ _).map Meaning.genMap = _ ↔ _
    simp
  case h_15 fields descriptorFields =>
    obtain ⟨values, hvalues, hmeaning⟩ := Option.bind_eq_some_iff.mp hmeaning
    obtain ⟨meanings, hmeanings, rfl⟩ := Option.map_eq_some_iff.mp hmeaning
    exact submits_record h hkeeps hvalues hmeanings hdecoded
  case h_16 constructorName payload constructors =>
    obtain ⟨found, hfound, hmeaning⟩ := Option.bind_eq_some_iff.mp hmeaning
    obtain ⟨inner, hinner, rfl⟩ := Option.map_eq_some_iff.mp hmeaning
    simp only [decodeProtobufValue, hfound] at hdecoded
    obtain ⟨value, hvalue, hdecoded⟩ := bind_eq_ok.mp hdecoded
    cases hdecoded
    have hpayload := keepsLabels_of_constructors hkeeps (List.mem_of_find?_eq_some hfound)
    rw [resubmits, ← submits_part h hpayload hinner hvalue]
    change (constructors.find? _).bind _ = _ ↔ _
    rw [hfound]
    change (denote (submitted value) found.payload).map _ = _ ↔ _
    simp
  case h_17 constructorName constructors =>
    rw [Option.ite_none_right_eq_some] at hmeaning
    obtain ⟨hmem, heq⟩ := hmeaning
    cases heq
    simp only [decodeProtobufValue, if_pos hmem] at hdecoded
    cases hdecoded
    exact iff_of_true (if_pos hmem) rfl
  case h_18 => cases hmeaning

end Parts

theorem submits_decoded {registry : Registry} (hregistry : RegistryKeepsLabels registry) {fuel : Nat}
    {value : Query.Grpc.Value} {descriptor : DamlTypeDescriptor} {meaning : Meaning} {path : String}
    {decoded : DamlValue} (hkeeps : keepsLabels descriptor = true)
    (hmeaning : denote registry fuel value descriptor = some meaning)
    (hdecoded : decodeDamlValue registry fuel (.protobuf value) descriptor path = .ok decoded) :
    denote registry fuel (submitted decoded) descriptor = some meaning ↔ resubmits meaning = true := by
  induction fuel generalizing value descriptor meaning path decoded with
  | zero => cases hmeaning
  | succ fuel ih =>
      cases descriptor with
      | namedReference identity typeArguments =>
          obtain ⟨resolved, hresolved, hvalue⟩ := Option.bind_eq_some_iff.mp hmeaning
          rw [decodeDamlValue, hresolved] at hdecoded
          rw [denote, hresolved, Option.bind_some]
          exact ih (hregistry _ _ _ hkeeps hresolved) hvalue hdecoded
      | _ => exact submits_value ih hkeeps hmeaning hdecoded

end CantonSdk.Commands
