import CantonSdk.Base.Text
import CantonSdk.Commands.Resubmission
import CantonSdk.DamlLf.Model

/-!
# Values that the SDK produces

Values for DAML types come from the decoder of Ledger API values, and from the generators of the testing
package. Whichever they come from, submitting them gives a value of their type with their meaning exactly
when there is no int64, contract id or value of an optional in it.
-/

set_option linter.all false

namespace CantonSdk.Commands

open CantonSdk.Base CantonSdk.DamlLf CantonSdk.DamlValues

/-! ## Generators -/

/-- `formatNumeric(value, scale)`. -/
def formatNumeric (value : Int) (scale : Nat) : String :=
  let sign := if value < 0 then ['-'] else []
  let digits := padStart (scale + 1) '0' (Nat.toDigits 10 value.natAbs)
  String.ofList (sign ++ digits.take (digits.length - scale) ++ '.' :: digits.drop (digits.length - scale))

/-- `createNumericArbitrary`: the values that it generates. -/
def createNumericArbitrary (scale : Option Int) : Except String (DamlValue → Prop) :=
  let fractionScale := min (scale.getD 6) 6
  if fractionScale < 1 then
    .error "Automatic DAML numeric generation requires a Numeric scale of at least one."
  else
    .ok fun sample => ∃ value : Int, -1000000 ≤ value ∧ value ≤ 1000000 ∧
      value.tmod (10 ^ fractionScale.toNat) ≠ 0 ∧ sample = .numeric (formatNumeric value fractionScale.toNat)

/-- `createDamlValueArbitrary`, of the fields of a type that it looks at: the values that it generates. -/
def createDamlValueArbitrary (typeConReference : Option TypeConReference) (builtinType : DamlLfBuiltinType)
    (numericScale : Option Int) (valueParties : List String) : Except String (DamlValue → Prop) :=
  if typeConReference.isSome then
    .error "Automatic DAML value generation does not yet support type constructors."
  else
    match builtinType with
    | .text => .ok fun sample => ∃ text : String, text.length ≤ 64 ∧ sample = .string text
    | .int64 => .ok fun sample => ∃ n : Int, -(2 ^ 63) ≤ n ∧ n ≤ 2 ^ 63 - 1 ∧ sample = .bigint n
    | .numeric => createNumericArbitrary numericScale
    | .party =>
        if valueParties.isEmpty then .error "Automatic DAML party generation requires non-empty valueParties."
        else .ok fun sample => ∃ party ∈ valueParties, party.isEmpty = false ∧ sample = .party party
    | _ => .error ("Automatic DAML value generation does not support '" ++ builtinType.memberText ++ "'.")

/-- The type that is generated for. -/
def generatedType (builtinType : DamlLfBuiltinType) (numericScale : Option Int) : Option DamlTypeDescriptor :=
  match builtinType with
  | .text => some (.primitive .text numericScale)
  | .int64 => some (.primitive .int64 numericScale)
  | .numeric => some (.primitive .numeric numericScale)
  | .party => some (.primitive .party numericScale)
  | _ => none

/-- What a generated value stands for. -/
def sampleMeaning : DamlValue → Option Meaning
  | .string text => some (.text text)
  | .bigint n => some (.int64 n)
  | .numeric text =>
      (numericParts text).map fun parts => .numeric (spelledNumber text parts.1 parts.2)
  | .party party => some (.party party)
  | _ => none

/-- The text of a generated numeric: digits in front of the point, and as many after it as its scale says. -/
theorem exists_formatted {value : Int} (hleast : -1000000 ≤ value) (hmost : value ≤ 1000000) {scale : Nat}
    (hscale : 1 ≤ scale) :
    ∃ sign whole fraction : List Char, (sign = [] ∨ sign = ['-']) ∧ whole ≠ [] ∧ whole.all Char.isDigit = true ∧
      fraction.all Char.isDigit = true ∧ fraction.length = scale ∧ whole.length ≤ max 1 (7 - scale) ∧
      formatNumeric value scale = String.ofList (sign ++ whole ++ '.' :: fraction) := by
  have hlength : (Nat.toDigits 10 value.natAbs).length ≤ 7 := (Nat.length_toDigits_le_iff (by decide) (by decide)).mpr (by omega)
  have hpos : 0 < (Nat.toDigits 10 value.natAbs).length := Nat.length_toDigits_pos
  have hdigits : (padStart (scale + 1) '0' (Nat.toDigits 10 value.natAbs)).all Char.isDigit = true := by
    rw [padStart, List.all_append, toDigits_isDigit, Bool.and_true, List.all_replicate]
    simp
  have hpadded : (padStart (scale + 1) '0' (Nat.toDigits 10 value.natAbs)).length
      = max (scale + 1) (Nat.toDigits 10 value.natAbs).length := by
    rw [padStart, List.length_append, List.length_replicate]
    omega
  generalize hd : padStart (scale + 1) '0' (Nat.toDigits 10 value.natAbs) = digits at hdigits hpadded
  rw [List.all_eq_true] at hdigits
  refine ⟨if value < 0 then ['-'] else [], digits.take (digits.length - scale), digits.drop (digits.length - scale),
    ?_, ?_, ?_, ?_, ?_, ?_, ?_⟩
  · split
    · exact .inr rfl
    · exact .inl rfl
  · intro hempty
    have := congrArg List.length hempty
    rw [List.length_take, List.length_nil] at this
    omega
  · rw [List.all_eq_true]
    exact fun c hc => hdigits c (List.mem_of_mem_take hc)
  · rw [List.all_eq_true]
    exact fun c hc => hdigits c (List.mem_of_mem_drop hc)
  · rw [List.length_drop]
    omega
  · rw [List.length_take]
    omega
  · simp only [formatNumeric, hd]

/-- A generated numeric is one of its type. -/
theorem numericMeaning_formatted {value : Int} (hleast : -1000000 ≤ value) (hmost : value ≤ 1000000)
    {numericScale : Option Int} (htype : ∀ scale, numericScale = some scale → 0 ≤ scale ∧ scale ≤ 37)
    (hscale : ¬ min (numericScale.getD 6) 6 < 1) {text : String}
    (htext : text = formatNumeric value (min (numericScale.getD 6) 6).toNat) :
    ∃ number, sampleMeaning (.numeric text) = some (.numeric number) ∧
      numericMeaning numericScale text = some (.numeric number) := by
  have hpos : 1 ≤ (min (numericScale.getD 6) 6).toNat := by omega
  obtain ⟨sign, whole, fraction, hsign, hwhole, hdigits, hfraction, hlength, hshort, hformat⟩ :=
    exists_formatted hleast hmost hpos
  have hparts : numericParts text = some (whole, fraction) := by
    rw [htext, hformat]
    exact numericParts_joined hsign hwhole hdigits hfraction
  have hdrop : (whole.dropWhile fun c => c = '0').length ≤ whole.length := (List.dropWhile_suffix _).length_le
  have htrim : (trimZeros fraction).length ≤ fraction.length := (List.rdropWhile_prefix _ _).length_le
  refine ⟨spelledNumber text whole fraction, by rw [sampleMeaning, hparts]; rfl, ?_⟩
  rw [numericMeaning, hparts]
  refine if_pos ⟨by omega, by omega, ?_⟩
  cases numericScale with
  | none =>
      rw [isRepresentable, decide_eq_true_eq]
      rw [Option.getD_none] at hlength hshort
      omega
  | some scale =>
      have hvalid := htype scale rfl
      rw [isRepresentable, decide_eq_true_eq]
      rw [Option.getD_some] at hlength hshort hscale
      omega

/-! ## Produced values -/

/-- A value that the SDK produces for a type, with what it means there: a decoded or a generated one, or
one that is put together from such values. -/
inductive Produced (registry : Registry) : DamlTypeDescriptor → Meaning → DamlValue → Prop
  | decoded {value : Query.Grpc.Value} {descriptor : DamlTypeDescriptor} {meaning : Meaning} {path : String}
      {result : DamlValue} (hkeeps : keepsLabels descriptor = true)
      (hmeaning : Denotes registry value descriptor meaning)
      (hdecoded : Decodes registry (.protobuf value) descriptor path result) :
      Produced registry descriptor meaning result
  | generated {builtinType : DamlLfBuiltinType} {numericScale : Option Int} {valueParties : List String}
      {samples : DamlValue → Prop} {descriptor : DamlTypeDescriptor} {meaning : Meaning} {sample : DamlValue}
      (htype : ∀ scale, numericScale = some scale → 0 ≤ scale ∧ scale ≤ 37)
      (hsamples : createDamlValueArbitrary none builtinType numericScale valueParties = .ok samples)
      (hsample : samples sample) (hdescriptor : generatedType builtinType numericScale = some descriptor)
      (hmeaning : sampleMeaning sample = some meaning) : Produced registry descriptor meaning sample
  | absent {element : DamlTypeDescriptor} : Produced registry (.optional element) .absent .undefined
  | present {element : DamlTypeDescriptor} {meaning : Meaning} {value : DamlValue}
      (h : Produced registry element meaning value) : Produced registry (.optional element) (.present meaning) value
  | list {element : DamlTypeDescriptor} (items : List (Meaning × DamlValue))
      (h : ∀ item ∈ items, Produced registry element item.1 item.2) :
      Produced registry (.list element) (.list (items.map Prod.fst)) (.array (items.map Prod.snd))
  | textMap {element : DamlTypeDescriptor} (entries : List (String × Meaning × DamlValue))
      (hnodup : (entries.map Prod.fst).Nodup) (h : ∀ entry ∈ entries, Produced registry element entry.2.1 entry.2.2) :
      Produced registry (.textMap element) (.textMap (entries.map fun entry => (entry.1, entry.2.1)))
        (.textMap (entries.map fun entry => (entry.1, entry.2.2)))
  | genMap {key element : DamlTypeDescriptor} (entries : List ((Meaning × DamlValue) × (Meaning × DamlValue)))
      (hkeys : ∀ entry ∈ entries, Produced registry key entry.1.1 entry.1.2)
      (h : ∀ entry ∈ entries, Produced registry element entry.2.1 entry.2.2) :
      Produced registry (.genMap key element) (.genMap (entries.map fun entry => (entry.1.1, entry.2.1)))
        (.genMap (entries.map fun entry => (entry.1.2, entry.2.2)))
  | record (fields : List (RecordField DamlTypeDescriptor × Meaning × DamlValue))
      (hkeeps : keepsLabels (.record (fields.map Prod.fst)) = true)
      (h : ∀ field ∈ fields, Produced registry field.1.type field.2.1 field.2.2) :
      Produced registry (.record (fields.map Prod.fst)) (.record (fields.map fun field => field.2.1))
        (.record (assigned (fields.map fun field => (field.1.propertyName, field.2.2))) none)
  | object (fields : List (RecordField DamlTypeDescriptor × Meaning × DamlValue))
      (hkeeps : keepsLabels (.record (fields.map Prod.fst)) = true)
      (h : ∀ field ∈ fields, Produced registry field.1.type field.2.1 field.2.2) :
      Produced registry (.record (fields.map Prod.fst)) (.record (fields.map fun field => field.2.1))
        (.object (assigned (fields.map fun field => (field.1.propertyName, field.2.2))))
  | variant {constructors : List (VariantConstructor DamlTypeDescriptor)} {constructorName : String}
      {found : VariantConstructor DamlTypeDescriptor} {meaning : Meaning} {value : DamlValue}
      (hfound : constructors.find? (fun candidate => decide (candidate.constructorName = constructorName)) = some found)
      (h : Produced registry found.payload meaning value) :
      Produced registry (.variant constructors) (.variant constructorName meaning) (.variant constructorName value none)
  | named {identity : DamlTypeIdentity} {typeArguments : List DamlTypeDescriptor} {resolved : DamlTypeDescriptor}
      {meaning : Meaning} {value : DamlValue} (hresolved : registry identity typeArguments = some resolved)
      (h : Produced registry resolved meaning value) :
      Produced registry (.namedReference identity typeArguments) meaning value

section Submission

variable {registry : Registry}

theorem submits_generated {builtinType : DamlLfBuiltinType} {numericScale : Option Int}
    {valueParties : List String} {samples : DamlValue → Prop} {descriptor : DamlTypeDescriptor} {meaning : Meaning}
    {sample : DamlValue} (htype : ∀ scale, numericScale = some scale → 0 ≤ scale ∧ scale ≤ 37)
    (hsamples : createDamlValueArbitrary none builtinType numericScale valueParties = .ok samples)
    (hsample : samples sample) (hdescriptor : generatedType builtinType numericScale = some descriptor)
    (hmeaning : sampleMeaning sample = some meaning) :
    Denotes registry (submitted sample) descriptor meaning ↔ resubmits meaning = true := by
  cases builtinType with
  | text =>
      cases hsamples
      cases hdescriptor
      obtain ⟨text, _, rfl⟩ := hsample
      cases hmeaning
      exact iff_of_true ⟨1, rfl⟩ rfl
  | int64 =>
      cases hsamples
      cases hdescriptor
      obtain ⟨n, _, _, rfl⟩ := hsample
      cases hmeaning
      refine iff_of_false ?_ nofun
      intro h
      obtain ⟨fuel, hfuel⟩ := h
      cases fuel with
      | zero => cases hfuel
      | succ fuel => cases hfuel
  | numeric =>
      cases hdescriptor
      change createNumericArbitrary numericScale = .ok samples at hsamples
      simp only [createNumericArbitrary] at hsamples
      split at hsamples
      · cases hsamples
      · rename_i hscale
        cases hsamples
        obtain ⟨value, hleast, hmost, _, rfl⟩ := hsample
        obtain ⟨number, hnumber, hdenotes⟩ := numericMeaning_formatted hleast hmost htype hscale rfl
        cases hnumber.symm.trans hmeaning
        exact iff_of_true ⟨1, hdenotes⟩ rfl
  | party =>
      cases hdescriptor
      change (if valueParties.isEmpty then _ else _) = _ at hsamples
      split at hsamples
      · cases hsamples
      · cases hsamples
        obtain ⟨party, _, hparty, rfl⟩ := hsample
        cases hmeaning
        exact iff_of_true ⟨1, if_neg (by rw [hparty]; exact nofun)⟩ rfl
  | _ => cases hdescriptor

theorem submits_of_decodes (hregistry : RegistryKeepsLabels registry) {value : Query.Grpc.Value}
    {descriptor : DamlTypeDescriptor} {meaning : Meaning} {path : String} {decoded : DamlValue}
    (hkeeps : keepsLabels descriptor = true) (hmeaning : Denotes registry value descriptor meaning)
    (hdecoded : Decodes registry (.protobuf value) descriptor path decoded) :
    Denotes registry (submitted decoded) descriptor meaning ↔ resubmits meaning = true := by
  obtain ⟨least, hmeaning⟩ := hmeaning
  have hsubmits : ∀ bound, ∃ fuel, bound ≤ fuel ∧
      (denote registry fuel (submitted decoded) descriptor = some meaning ↔ resubmits meaning = true) := by
    intro bound
    obtain ⟨fuel, hle, hfuel, _⟩ := decodes_together hdecoded hdecoded (max bound least)
    exact ⟨fuel, by omega, submits_decoded hregistry hkeeps (denote_of_le (by omega) hmeaning) hfuel⟩
  constructor
  · intro h
    obtain ⟨bound, hbound⟩ := h
    obtain ⟨fuel, hle, hiff⟩ := hsubmits bound
    exact hiff.mp (denote_of_le hle hbound)
  · intro h
    obtain ⟨fuel, _, hiff⟩ := hsubmits 0
    exact ⟨fuel, hiff.mpr h⟩

theorem not_denotes_present {value : DamlValue} {element : DamlTypeDescriptor} {meaning : Meaning} :
    ¬ Denotes registry (submitted value) (.optional element) (.present meaning) := by
  rw [denotes_iff (by simp)]
  intro h
  obtain ⟨fuel, hfuel⟩ := h
  exact submitted_not_present hfuel

theorem submits_fields (fields : List (RecordField DamlTypeDescriptor × Meaning × DamlValue))
    (hkeeps : keepsLabels (.record (fields.map Prod.fst)) = true)
    (h : ∀ field ∈ fields,
      Denotes registry (submitted field.2.2) field.1.type field.2.1 ↔ resubmits field.2.1 = true) :
    Denotes registry
        (.record (submittedFields (assigned (fields.map fun field => (field.1.propertyName, field.2.2)))))
        (.record (fields.map Prod.fst)) (.record (fields.map fun field => field.2.1)) ↔
      resubmits (.record (fields.map fun field => field.2.1)) = true := by
  rw [keepsLabels, Bool.and_eq_true, decide_eq_true_eq, fieldsKeepLabels_iff] at hkeeps
  have hnames : (fields.map fun field => (field.1.propertyName, field.2.2)).map Prod.fst
      = (fields.map Prod.fst).map RecordField.damlLabel := by
    rw [List.map_map, List.map_map]
    apply List.map_congr_left
    intro field hfield
    exact (hkeeps.2 _ (List.mem_map_of_mem hfield)).1.1
  have hsubmitted := sourceFields_submitted hnames hkeeps.1 fun field hfield => (hkeeps.2 field hfield).1.2
  rw [denotes_record hsubmitted, List.map_map, List.zip_map', List.forall₂_map_left_iff, List.forall₂_map_right_iff,
    List.forall₂_same, resubmits, allResubmit_iff, List.forall_mem_map]
  exact forall₂_congr h

end Submission

/-- What the SDK produces is submitted as a value of its type with its meaning exactly when there is no int64,
contract id or value of an optional in it. -/
theorem resubmitted_iff {registry : Registry} (hregistry : RegistryKeepsLabels registry)
    {descriptor : DamlTypeDescriptor} {meaning : Meaning} {value : DamlValue}
    (h : Produced registry descriptor meaning value) :
    Denotes registry (submitted value) descriptor meaning ↔ resubmits meaning = true := by
  induction h with
  | decoded hkeeps hmeaning hdecoded => exact submits_of_decodes hregistry hkeeps hmeaning hdecoded
  | generated htype hsamples hsample hdescriptor hmeaning =>
      exact submits_generated htype hsamples hsample hdescriptor hmeaning
  | absent => exact iff_of_true ⟨1, rfl⟩ rfl
  | present => exact iff_of_false not_denotes_present nofun
  | list items _ ih =>
      rw [submitted_array, denotes_list, List.map_map, List.forall₂_map_left_iff, List.forall₂_map_right_iff,
        List.forall₂_same, resubmits, allResubmit_iff, List.forall_mem_map]
      exact forall₂_congr ih
  | textMap entries hnodup _ ih =>
      rw [submitted_textMap, submittedFields, List.map_map, denotes_textMap (by rw [List.map_map]; exact hnodup),
        List.forall₂_map_left_iff, List.forall₂_map_right_iff, List.forall₂_same, resubmits, entriesResubmit_iff,
        List.forall_mem_map]
      refine forall₂_congr fun entry hentry => ?_
      rw [← ih entry hentry]
      simp [denoteEntry, Denotes]
  | genMap entries _ _ ihKeys ih =>
      rw [submitted_genMap, List.map_map, denotes_genMap, List.forall₂_map_left_iff, List.forall₂_map_right_iff,
        List.forall₂_same, resubmits, pairsResubmit_iff, List.forall_mem_map]
      refine forall₂_congr fun entry hentry => ?_
      rw [Bool.and_eq_true, ← ihKeys entry hentry, ← ih entry hentry, ← denotes_pair]
      rfl
  | record fields hkeeps _ ih =>
      rw [submitted_record]
      exact submits_fields fields hkeeps ih
  | object fields hkeeps _ ih =>
      rw [submitted_object]
      exact submits_fields fields hkeeps ih
  | variant hfound _ ih =>
      rw [resubmits, ← ih]
      exact denotes_variant hfound
  | named hresolved _ ih => rw [denotes_named hresolved, ih]

/-- A registry with one recursive type: an owner, an optional note and a list of the same. -/
def folderRegistry : Registry := fun identity _ =>
  if identity.entityName = "Folder" then
    some (.record [⟨"owner", "owner", .primitive .party none⟩, ⟨"note", "note", .optional (.primitive .text none)⟩,
      ⟨"folders", "folders", .list (.namedReference identity [])⟩])
  else none

theorem folderRegistry_keepsLabels : RegistryKeepsLabels folderRegistry := by
  intro identity typeArguments resolved _ h
  rw [folderRegistry, Option.ite_none_right_eq_some] at h
  cases h.2
  simp [keepsLabels, fieldsKeepLabels, allKeepLabels]

theorem resubmitted_folder :
    Denotes folderRegistry
      (submitted (.record [("owner", .party "Alice"), ("note", .undefined),
        ("folders", .array [.record [("owner", .party "Bob"), ("note", .undefined), ("folders", .array [])] none])] none))
      (.namedReference ⟨"package", "Files", "Folder"⟩ [])
      (.record [.party "Alice", .absent, .list [.record [.party "Bob", .absent, .list []]]]) := by
  have hproduced : Produced folderRegistry (.namedReference ⟨"package", "Files", "Folder"⟩ [])
      (.record [.party "Alice", .absent, .list [.record [.party "Bob", .absent, .list []]]])
      (.record [("owner", .party "Alice"), ("note", .undefined),
        ("folders", .array [.record [("owner", .party "Bob"), ("note", .undefined), ("folders", .array [])] none])]
        none) :=
    @Produced.decoded _ (.record [("folders", some (.list [.record [("", some (.party "Bob")),
      ("", some (.optional none)), ("", some (.list []))]])), ("note", some (.optional none)),
      ("owner", some (.party "Alice"))]) _ _ "$" _ rfl ⟨7, by rfl⟩ ⟨7, by rfl⟩
  exact (resubmitted_iff folderRegistry_keepsLabels hproduced).mpr rfl

/-- An int64 decodes to a bigint, and a bigint is submitted as a record without fields. -/
theorem int64_not_resubmitted :
    Denotes folderRegistry (.int64 "5") (.primitive .int64 none) (.int64 5) ∧
      Decodes folderRegistry (.protobuf (.int64 "5")) (.primitive .int64 none) "$" (.bigint 5) ∧
      mapValue (.bigint 5) = .record none [] ∧
      ¬ Denotes folderRegistry (submitted (.bigint 5)) (.primitive .int64 none) (.int64 5) := by
  refine ⟨⟨1, by rfl⟩, ⟨1, by rfl⟩, by rw [mapValue], ?_⟩
  intro h
  obtain ⟨fuel, hfuel⟩ := h
  cases fuel with
  | zero => cases hfuel
  | succ fuel => cases hfuel

end CantonSdk.Commands
