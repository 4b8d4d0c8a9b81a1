import CantonSdk.DamlValues.EventSource

/-!
# JSON forms of record messages

An encoder of protobuf JSON may leave out a member that holds its default. The recognizers find exactly the forms of
records in which the list of fields of the record itself, the keys of text maps and the names of types and constructors
are written out; whatever has no such form is taken for the JSON of a template record.
-/

set_option linter.all false

namespace CantonSdk.DamlValues.EventSource

/-! ## Members -/

/-- Members that are looked for even where they hold their default. -/
inductive ExpectedMember
  | payloadFields
  | mapKey
  | typeName
  | constructorName

/-- Which of these members an encoder may leave out. -/
abbrev Encoding := ExpectedMember → Prop

/-- Protobuf JSON, which leaves out any member that holds its default. -/
def proto3Json : Encoding := fun _ => True

/-- An encoding that writes these members out. -/
def writtenOut : Encoding := fun _ => False

def OnlyKeys (properties : Properties) (keys : List String) : Prop := ∀ property ∈ properties, property.1 ∈ keys

/-- What stands at the key of a list, which may be left out if it is empty and that is allowed. -/
inductive RepeatedMember {α : Type} (Form : α → Json → Prop) (allowed : Prop) : List α → Option Json → Prop
  | absent (hallowed : allowed) : RepeatedMember Form allowed [] none
  | present {values : List α} {items : List Json} (hforms : List.Forall₂ Form values items) :
      RepeatedMember Form allowed values (some (.array items))

/-- What stands at the key of a text, which may be left out if it is empty and that is allowed. -/
inductive TextMember (allowed : Prop) : String → Option Json → Prop
  | absent (hallowed : allowed) : TextMember allowed "" none
  | present {text : String} : TextMember allowed text (some (.string text))

/-! ## Forms -/

inductive IdentifierForm (encoding : Encoding) : Identifier → Json → Prop
  | of {identifier : Identifier} {properties : Properties}
      (hkeys : OnlyKeys properties ["packageId", "moduleName", "entityName"])
      (hpackage : TextMember (encoding .typeName) identifier.packageId (properties.lookup "packageId"))
      (hmodule : TextMember (encoding .typeName) identifier.moduleName (properties.lookup "moduleName"))
      (hentity : TextMember (encoding .typeName) identifier.entityName (properties.lookup "entityName")) :
      IdentifierForm encoding identifier (.object properties)

/-- The member of the sum that a value has. -/
def Value.case : Value → ValueCase
  | .unit => .unit
  | .bool _ => .bool
  | .int64 _ => .int64
  | .date _ => .date
  | .timestamp _ => .timestamp
  | .numeric _ => .numeric
  | .party _ => .party
  | .text _ => .text
  | .contractId _ => .contractId
  | .optional _ => .optional
  | .list _ => .list
  | .textMap _ => .textMap
  | .genMap _ => .genMap
  | .record _ _ => .record
  | .variant _ _ _ => .variant
  | .enum _ _ => .enum

mutual

inductive ValueForm (encoding : Encoding) : Value → Json → Prop
  | of {value : Value} {content : Json} (hcontent : ContentForm encoding value content) :
      ValueForm encoding value (.object [(value.case.key, content)])

/-- The forms of what the sum of a value holds. -/
inductive ContentForm (encoding : Encoding) : Value → Json → Prop
  | unit : ContentForm encoding .unit (.object [])
  | bool {value : Bool} : ContentForm encoding (.bool value) (.bool value)
  | int64 {value : String} : ContentForm encoding (.int64 value) (.string value)
  /-- A date is a number of days that the host can hold. -/
  | date {value : Int} (hsafe : -maxSafeInteger ≤ value ∧ value ≤ maxSafeInteger) :
      ContentForm encoding (.date value) (.number value)
  | timestamp {value : String} : ContentForm encoding (.timestamp value) (.string value)
  | numeric {value : String} : ContentForm encoding (.numeric value) (.string value)
  | party {value : String} : ContentForm encoding (.party value) (.string value)
  | text {value : String} : ContentForm encoding (.text value) (.string value)
  | contractId {value : String} : ContentForm encoding (.contractId value) (.string value)
  | optional {value : Option Value} {properties : Properties} (hkeys : OnlyKeys properties ["value"])
      (hvalue : Option.Rel (ValueForm encoding) value (properties.lookup "value")) :
      ContentForm encoding (.optional value) (.object properties)
  | list {elements : List Value} {properties : Properties} (hkeys : OnlyKeys properties ["elements"])
      (helements : RepeatedMember (ValueForm encoding) True elements (properties.lookup "elements")) :
      ContentForm encoding (.list elements) (.object properties)
  | textMap {entries : List (String × Value)} {properties : Properties} (hkeys : OnlyKeys properties ["entries"])
      (hentries : RepeatedMember (TextMapEntryForm encoding) True entries (properties.lookup "entries")) :
      ContentForm encoding (.textMap entries) (.object properties)
  | genMap {entries : List (Value × Value)} {properties : Properties} (hkeys : OnlyKeys properties ["entries"])
      (hentries : RepeatedMember (GenMapEntryForm encoding) True entries (properties.lookup "entries")) :
      ContentForm encoding (.genMap entries) (.object properties)
  | record {recordId : Option Identifier} {fields : List (String × Value)} {properties : Properties}
      (hkeys : OnlyKeys properties ["recordId", "fields"])
      (hid : Option.Rel (IdentifierForm encoding) recordId (properties.lookup "recordId"))
      (hfields : RepeatedMember (FieldForm encoding) True fields (properties.lookup "fields")) :
      ContentForm encoding (.record recordId fields) (.object properties)
  | variant {variantId : Option Identifier} {constructor_ : String} {value : Value} {properties : Properties}
      (hkeys : OnlyKeys properties ["variantId", "constructor", "value"])
      (hid : Option.Rel (IdentifierForm encoding) variantId (properties.lookup "variantId"))
      (hconstructor : TextMember (encoding .constructorName) constructor_ (properties.lookup "constructor"))
      (hvalue : Option.Rel (ValueForm encoding) (some value) (properties.lookup "value")) :
      ContentForm encoding (.variant variantId constructor_ value) (.object properties)
  | enum {enumId : Option Identifier} {constructor_ : String} {properties : Properties}
      (hkeys : OnlyKeys properties ["enumId", "constructor"])
      (hid : Option.Rel (IdentifierForm encoding) enumId (properties.lookup "enumId"))
      (hconstructor : TextMember (encoding .constructorName) constructor_ (properties.lookup "constructor")) :
      ContentForm encoding (.enum enumId constructor_) (.object properties)

inductive TextMapEntryForm (encoding : Encoding) : String × Value → Json → Prop
  | of {key : String} {value : Value} {properties : Properties} (hkeys : OnlyKeys properties ["key", "value"])
      (hkey : TextMember (encoding .mapKey) key (properties.lookup "key"))
      (hvalue : Option.Rel (ValueForm encoding) (some value) (properties.lookup "value")) :
      TextMapEntryForm encoding (key, value) (.object properties)

inductive GenMapEntryForm (encoding : Encoding) : Value × Value → Json → Prop
  | of {key value : Value} {properties : Properties} (hkeys : OnlyKeys properties ["key", "value"])
      (hkey : Option.Rel (ValueForm encoding) (some key) (properties.lookup "key"))
      (hvalue : Option.Rel (ValueForm encoding) (some value) (properties.lookup "value")) :
      GenMapEntryForm encoding (key, value) (.object properties)

inductive FieldForm (encoding : Encoding) : String × Value → Json → Prop
  | of {label : String} {value : Value} {properties : Properties} (hkeys : OnlyKeys properties ["label", "value"])
      (hlabel : TextMember True label (properties.lookup "label"))
      (hvalue : Option.Rel (ValueForm encoding) (some value) (properties.lookup "value")) :
      FieldForm encoding (label, value) (.object properties)

end

/-- The forms of a record message. -/
inductive RecordForm (encoding : Encoding) : Record → Json → Prop
  | of {record : Record} {properties : Properties} (hkeys : OnlyKeys properties ["recordId", "fields"])
      (hid : Option.Rel (IdentifierForm encoding) record.recordId (properties.lookup "recordId"))
      (hfields : RepeatedMember (FieldForm encoding) (encoding .payloadFields) record.fields (properties.lookup "fields")) :
      RecordForm encoding record (.object properties)

/-! ## What recognizers find -/

/-- Up to a depth, the recognizer finds exactly what has a form. -/
def Exact {α : Type} (recognizer : Json → Bool) (Form : α → Json → Prop) (depth : Nat) : Prop :=
  ∀ json, json.depth ≤ depth → (recognizer json = true ↔ ∃ value, Form value json)

section Parts

variable {α : Type} {recognizer : Json → Bool} {Form : α → Json → Prop} {depth : Nat} {properties : Properties}
  {key : String}

theorem Exact.mono {less : Nat} (h : Exact recognizer Form depth) (hless : less ≤ depth) : Exact recognizer Form less :=
  fun json hjson => h json (hjson.trans hless)

theorem depth_lookup {json : Json} (hlookup : properties.lookup key = some json) :
    json.depth ≤ depthOfProperties properties := by
  induction properties with
  | nil => cases hlookup
  | cons property properties ih =>
      rw [List.lookup_cons] at hlookup
      rw [depthOfProperties]
      split at hlookup
      · obtain rfl := Option.some.inj hlookup
        exact le_max_left _ _
      · exact (ih hlookup).trans (le_max_right _ _)

theorem depth_item {items : List Json} {item : Json} (hitem : item ∈ items) : item.depth ≤ depthOfItems items := by
  induction items with
  | nil => cases hitem
  | cons first items ih =>
      rw [depthOfItems]
      rcases List.mem_cons.mp hitem with rfl | hitem
      · exact le_max_left _ _
      · exact (ih hitem).trans (le_max_right _ _)

theorem Exact.at (h : Exact recognizer Form depth) (hdepth : depthOfProperties properties ≤ depth) {json : Json}
    (hlookup : properties.lookup key = some json) : recognizer json = true ↔ ∃ value, Form value json :=
  h json ((depth_lookup hlookup).trans hdepth)

theorem hasOnlyKeys_iff {keys : List String} : hasOnlyKeys properties keys = true ↔ OnlyKeys properties keys := by
  simp [hasOnlyKeys, OnlyKeys]

/-- A list of items has a form if every item has one. -/
theorem exists_forall₂_iff {items : List Json}
    (h : ∀ item ∈ items, (recognizer item = true ↔ ∃ value, Form value item)) :
    items.all recognizer = true ↔ ∃ values, List.Forall₂ Form values items := by
  induction items with
  | nil => exact ⟨fun _ => ⟨[], .nil⟩, fun _ => rfl⟩
  | cons item items ih =>
      have hitem := h item List.mem_cons_self
      have hitems := ih fun other hother => h other (List.mem_cons_of_mem _ hother)
      rw [List.all_cons, Bool.and_eq_true, hitem, hitems]
      constructor
      · rintro ⟨⟨value, hvalue⟩, values, hvalues⟩
        exact ⟨value :: values, .cons hvalue hvalues⟩
      · rintro ⟨values, hvalues⟩
        cases hvalues with
        | cons hvalue hvalues => exact ⟨⟨_, hvalue⟩, _, hvalues⟩

theorem isAbsentOr_iff (h : Exact recognizer Form depth) (hdepth : depthOfProperties properties ≤ depth) :
    isAbsentOr properties key recognizer = true ↔ ∃ value, Option.Rel Form value (properties.lookup key) := by
  have hat (json : Json) (hlookup : properties.lookup key = some json) := h.at hdepth hlookup
  unfold isAbsentOr
  cases hlookup : properties.lookup key with
  | none => exact ⟨fun _ => ⟨none, .none⟩, fun _ => rfl⟩
  | some json =>
      rw [hat json hlookup]
      constructor
      · rintro ⟨value, hvalue⟩
        exact ⟨some value, .some hvalue⟩
      · rintro ⟨_, hvalue⟩
        cases hvalue with
        | some hvalue => exact ⟨_, hvalue⟩

theorem isPresent_iff (h : Exact recognizer Form depth) (hdepth : depthOfProperties properties ≤ depth) :
    isPresent properties key recognizer = true ↔ ∃ value, Option.Rel Form (some value) (properties.lookup key) := by
  have hat (json : Json) (hlookup : properties.lookup key = some json) := h.at hdepth hlookup
  unfold isPresent
  cases hlookup : properties.lookup key with
  | none =>
      constructor
      · exact nofun
      · rintro ⟨_, hvalue⟩
        cases hvalue
  | some json =>
      rw [hat json hlookup]
      constructor
      · rintro ⟨value, hvalue⟩
        exact ⟨value, .some hvalue⟩
      · rintro ⟨_, hvalue⟩
        cases hvalue with
        | some hvalue => exact ⟨_, hvalue⟩

/-- An array has a form if its items have one, which are less deep. -/
theorem Exact.array (h : Exact recognizer Form depth) {items : List Json} (hdepth : (Json.array items).depth ≤ depth) :
    isArrayOf recognizer (.array items) = true ↔ ∃ values, List.Forall₂ Form values items := by
  apply exists_forall₂_iff
  intro item hitem
  apply h
  have hitem := depth_item hitem
  rw [Json.depth] at hdepth
  omega

theorem isAbsentOr_array_iff (h : Exact recognizer Form depth) (hdepth : depthOfProperties properties ≤ depth) :
    isAbsentOr properties key (isArrayOf recognizer) = true
      ↔ ∃ values, RepeatedMember Form True values (properties.lookup key) := by
  have hless (json : Json) (hlookup : properties.lookup key = some json) := depth_lookup hlookup
  unfold isAbsentOr
  cases hlookup : properties.lookup key with
  | none => exact ⟨fun _ => ⟨[], .absent trivial⟩, fun _ => rfl⟩
  | some json =>
      constructor
      · intro hjson
        cases json with
        | array items =>
            obtain ⟨values, hvalues⟩ := (h.array ((hless _ hlookup).trans hdepth)).mp hjson
            exact ⟨values, .present hvalues⟩
        | _ => cases hjson
      · rintro ⟨values, hvalues⟩
        cases hvalues with
        | present hvalues => exact (h.array ((hless _ hlookup).trans hdepth)).mpr ⟨values, hvalues⟩

theorem isPresent_array_iff (h : Exact recognizer Form depth) (hdepth : depthOfProperties properties ≤ depth) :
    isPresent properties key (isArrayOf recognizer) = true
      ↔ ∃ values, RepeatedMember Form False values (properties.lookup key) := by
  have hless (json : Json) (hlookup : properties.lookup key = some json) := depth_lookup hlookup
  unfold isPresent
  cases hlookup : properties.lookup key with
  | none =>
      constructor
      · exact nofun
      · rintro ⟨_, hvalues⟩
        cases hvalues with
        | absent hallowed => exact hallowed.elim
  | some json =>
      constructor
      · intro hjson
        cases json with
        | array items =>
            obtain ⟨values, hvalues⟩ := (h.array ((hless _ hlookup).trans hdepth)).mp hjson
            exact ⟨values, .present hvalues⟩
        | _ => cases hjson
      · rintro ⟨values, hvalues⟩
        cases hvalues with
        | present hvalues => exact (h.array ((hless _ hlookup).trans hdepth)).mpr ⟨values, hvalues⟩

theorem isString_iff {json : Json} : isString json = true ↔ ∃ text, json = .string text := by
  cases json <;> simp [isString]

theorem isAbsentOr_isString_iff :
    isAbsentOr properties key isString = true ↔ ∃ text, TextMember True text (properties.lookup key) := by
  unfold isAbsentOr
  cases properties.lookup key with
  | none => exact ⟨fun _ => ⟨"", .absent trivial⟩, fun _ => rfl⟩
  | some json =>
      constructor
      · intro hjson
        obtain ⟨text, rfl⟩ := isString_iff.mp hjson
        exact ⟨text, .present⟩
      · rintro ⟨_, htext⟩
        cases htext
        rfl

theorem isPresent_isString_iff :
    isPresent properties key isString = true ↔ ∃ text, TextMember False text (properties.lookup key) := by
  unfold isPresent
  cases properties.lookup key with
  | none =>
      constructor
      · exact nofun
      · rintro ⟨_, htext⟩
        cases htext with
        | absent hallowed => exact hallowed.elim
  | some json =>
      constructor
      · intro hjson
        obtain ⟨text, rfl⟩ := isString_iff.mp hjson
        exact ⟨text, .present⟩
      · rintro ⟨_, htext⟩
        cases htext with
        | present => rfl

end Parts

/-! ## Values -/

section Values

variable {isValueJson : Json → Bool} {depth : Nat}

theorem asObject_eq_some {json : Json} {properties : Properties} :
    asObject json = some properties ↔ json = .object properties := by
  cases json <;> simp [asObject]

theorem depth_of_object {properties : Properties} (h : (Json.object properties).depth ≤ depth + 1) :
    depthOfProperties properties ≤ depth := by
  rw [Json.depth] at h
  omega

theorem isIdentifierJson_exact : Exact isIdentifierJson (IdentifierForm writtenOut) depth := by
  intro json _
  constructor
  · intro h
    cases json with
    | object properties =>
        rw [isIdentifierJson, asObject, Bool.and_eq_true, Bool.and_eq_true, Bool.and_eq_true, hasOnlyKeys_iff,
          isPresent_isString_iff, isPresent_isString_iff, isPresent_isString_iff] at h
        obtain ⟨⟨⟨hkeys, packageId, hpackage⟩, moduleName, hmodule⟩, entityName, hentity⟩ := h
        exact ⟨⟨packageId, moduleName, entityName⟩, .of hkeys hpackage hmodule hentity⟩
    | _ => cases h
  · rintro ⟨identifier, hform⟩
    cases hform with
    | of hkeys hpackage hmodule hentity =>
        rw [isIdentifierJson, asObject, Bool.and_eq_true, Bool.and_eq_true, Bool.and_eq_true, hasOnlyKeys_iff,
          isPresent_isString_iff, isPresent_isString_iff, isPresent_isString_iff]
        exact ⟨⟨⟨hkeys, _, hpackage⟩, _, hmodule⟩, _, hentity⟩

variable (hvalue : Exact isValueJson (ValueForm writtenOut) depth)

include hvalue

theorem isRecordFieldJson_exact :
    Exact (isRecordFieldJson isValueJson) (FieldForm writtenOut) (depth + 1) := by
  intro json hdepth
  constructor
  · intro h
    cases json with
    | object properties =>
        rw [isRecordFieldJson, asObject, Bool.and_eq_true, Bool.and_eq_true, hasOnlyKeys_iff, isAbsentOr_isString_iff,
          isPresent_iff hvalue (depth_of_object hdepth)] at h
        obtain ⟨⟨hkeys, label, hlabel⟩, value, hform⟩ := h
        exact ⟨(label, value), .of hkeys hlabel hform⟩
    | _ => cases h
  · rintro ⟨field, hform⟩
    cases hform with
    | of hkeys hlabel hform =>
        rw [isRecordFieldJson, asObject, Bool.and_eq_true, Bool.and_eq_true, hasOnlyKeys_iff, isAbsentOr_isString_iff,
          isPresent_iff hvalue (depth_of_object hdepth)]
        exact ⟨⟨hkeys, _, hlabel⟩, _, hform⟩

theorem isTextMapEntryJson_exact :
    Exact (isTextMapEntryJson isValueJson) (TextMapEntryForm writtenOut) (depth + 1) := by
  intro json hdepth
  constructor
  · intro h
    cases json with
    | object properties =>
        rw [isTextMapEntryJson, asObject, Bool.and_eq_true, Bool.and_eq_true, hasOnlyKeys_iff, isPresent_isString_iff,
          isPresent_iff hvalue (depth_of_object hdepth)] at h
        obtain ⟨⟨hkeys, key, hkey⟩, value, hform⟩ := h
        exact ⟨(key, value), .of hkeys hkey hform⟩
    | _ => cases h
  · rintro ⟨entry, hform⟩
    cases hform with
    | of hkeys hkey hform =>
        rw [isTextMapEntryJson, asObject, Bool.and_eq_true, Bool.and_eq_true, hasOnlyKeys_iff, isPresent_isString_iff,
          isPresent_iff hvalue (depth_of_object hdepth)]
        exact ⟨⟨hkeys, _, hkey⟩, _, hform⟩

theorem isGenMapEntryJson_exact :
    Exact (isGenMapEntryJson isValueJson) (GenMapEntryForm writtenOut) (depth + 1) := by
  intro json hdepth
  constructor
  · intro h
    cases json with
    | object properties =>
        rw [isGenMapEntryJson, asObject, Bool.and_eq_true, Bool.and_eq_true, hasOnlyKeys_iff,
          isPresent_iff hvalue (depth_of_object hdepth), isPresent_iff hvalue (depth_of_object hdepth)] at h
        obtain ⟨⟨hkeys, key, hkey⟩, value, hform⟩ := h
        exact ⟨(key, value), .of hkeys hkey hform⟩
    | _ => cases h
  · rintro ⟨entry, hform⟩
    cases hform with
    | of hkeys hkey hform =>
        rw [isGenMapEntryJson, asObject, Bool.and_eq_true, Bool.and_eq_true, hasOnlyKeys_iff,
          isPresent_iff hvalue (depth_of_object hdepth), isPresent_iff hvalue (depth_of_object hdepth)]
        exact ⟨⟨hkeys, _, hkey⟩, _, hform⟩

/-- What is accepted at the key of a case is a form of what a value of that case holds. -/
theorem exists_content {valueCase : ValueCase} {content : Json} (hdepth : content.depth ≤ depth + 1)
    (h : isVariantContent isValueJson valueCase content = true) :
    ∃ value : Value, value.case = valueCase ∧ ContentForm writtenOut value content := by
  have hidentifier : Exact isIdentifierJson (IdentifierForm writtenOut) depth := isIdentifierJson_exact
  have hfield := (isRecordFieldJson_exact hvalue).mono (Nat.le_succ depth)
  have htextEntry := (isTextMapEntryJson_exact hvalue).mono (Nat.le_succ depth)
  have hgenEntry := (isGenMapEntryJson_exact hvalue).mono (Nat.le_succ depth)
  cases valueCase with
  | unit =>
      cases content with
      | object properties =>
          obtain rfl := List.isEmpty_iff.mp (show properties.isEmpty = true from h)
          exact ⟨.unit, rfl, .unit⟩
      | _ => cases h
  | bool =>
      cases content with
      | bool value => exact ⟨.bool value, rfl, .bool⟩
      | _ => cases h
  | int64 =>
      obtain ⟨text, rfl⟩ := isString_iff.mp h
      exact ⟨.int64 text, rfl, .int64⟩
  | date =>
      cases content with
      | number value =>
          obtain ⟨hinteger, hlower, hupper⟩ := of_decide_eq_true h
          rw [← (Rat.den_eq_one_iff value).mp hinteger]
          exact ⟨.date value.num, rfl, .date ⟨hlower, hupper⟩⟩
      | _ => cases h
  | timestamp =>
      obtain ⟨text, rfl⟩ := isString_iff.mp h
      exact ⟨.timestamp text, rfl, .timestamp⟩
  | numeric =>
      obtain ⟨text, rfl⟩ := isString_iff.mp h
      exact ⟨.numeric text, rfl, .numeric⟩
  | party =>
      obtain ⟨text, rfl⟩ := isString_iff.mp h
      exact ⟨.party text, rfl, .party⟩
  | text =>
      obtain ⟨text, rfl⟩ := isString_iff.mp h
      exact ⟨.text text, rfl, .text⟩
  | contractId =>
      obtain ⟨text, rfl⟩ := isString_iff.mp h
      exact ⟨.contractId text, rfl, .contractId⟩
  | optional =>
      cases content with
      | object properties =>
          rw [isVariantContent, isOptionalJson, asObject, Bool.and_eq_true, hasOnlyKeys_iff,
            isAbsentOr_iff hvalue (depth_of_object hdepth)] at h
          obtain ⟨hkeys, value, hform⟩ := h
          exact ⟨.optional value, rfl, .optional hkeys hform⟩
      | _ => cases h
  | list =>
      cases content with
      | object properties =>
          rw [isVariantContent, isListJson, asObject, Bool.and_eq_true, hasOnlyKeys_iff,
            isAbsentOr_array_iff hvalue (depth_of_object hdepth)] at h
          obtain ⟨hkeys, elements, hforms⟩ := h
          exact ⟨.list elements, rfl, .list hkeys hforms⟩
      | _ => cases h
  | textMap =>
      cases content with
      | object properties =>
          rw [isVariantContent, isTextMapJson, asObject, Bool.and_eq_true, hasOnlyKeys_iff,
            isAbsentOr_array_iff htextEntry (depth_of_object hdepth)] at h
          obtain ⟨hkeys, entries, hforms⟩ := h
          exact ⟨.textMap entries, rfl, .textMap hkeys hforms⟩
      | _ => cases h
  | genMap =>
      cases content with
      | object properties =>
          rw [isVariantContent, isGenMapJson, asObject, Bool.and_eq_true, hasOnlyKeys_iff,
            isAbsentOr_array_iff hgenEntry (depth_of_object hdepth)] at h
          obtain ⟨hkeys, entries, hforms⟩ := h
          exact ⟨.genMap entries, rfl, .genMap hkeys hforms⟩
      | _ => cases h
  | record =>
      cases content with
      | object properties =>
          rw [isVariantContent, isNestedRecordJson, asObject, Bool.and_eq_true, Bool.and_eq_true, hasOnlyKeys_iff,
            isAbsentOr_iff hidentifier (depth_of_object hdepth),
            isAbsentOr_array_iff hfield (depth_of_object hdepth)] at h
          obtain ⟨⟨hkeys, recordId, hid⟩, fields, hforms⟩ := h
          exact ⟨.record recordId fields, rfl, .record hkeys hid hforms⟩
      | _ => cases h
  | variant =>
      cases content with
      | object properties =>
          rw [isVariantContent, isVariantJson, asObject, Bool.and_eq_true, Bool.and_eq_true, Bool.and_eq_true,
            hasOnlyKeys_iff, isAbsentOr_iff hidentifier (depth_of_object hdepth), isPresent_isString_iff,
            isPresent_iff hvalue (depth_of_object hdepth)] at h
          obtain ⟨⟨⟨hkeys, variantId, hid⟩, constructor_, hconstructor⟩, value, hform⟩ := h
          exact ⟨.variant variantId constructor_ value, rfl, .variant hkeys hid hconstructor hform⟩
      | _ => cases h
  | enum =>
      cases content with
      | object properties =>
          rw [isVariantContent, isEnumJson, asObject, Bool.and_eq_true, Bool.and_eq_true, hasOnlyKeys_iff,
            isAbsentOr_iff hidentifier (depth_of_object hdepth), isPresent_isString_iff] at h
          obtain ⟨⟨hkeys, enumId, hid⟩, constructor_, hconstructor⟩ := h
          exact ⟨.enum enumId constructor_, rfl, .enum hkeys hid hconstructor⟩
      | _ => cases h

/-- A form of what a value holds is accepted at the key of its case. -/
theorem ContentForm.accepted {value : Value} {content : Json} (hdepth : content.depth ≤ depth + 1)
    (h : ContentForm writtenOut value content) : isVariantContent isValueJson value.case content = true := by
  have hidentifier : Exact isIdentifierJson (IdentifierForm writtenOut) depth := isIdentifierJson_exact
  have hfield := (isRecordFieldJson_exact hvalue).mono (Nat.le_succ depth)
  have htextEntry := (isTextMapEntryJson_exact hvalue).mono (Nat.le_succ depth)
  have hgenEntry := (isGenMapEntryJson_exact hvalue).mono (Nat.le_succ depth)
  cases h with
  | date hsafe => exact decide_eq_true ⟨rfl, hsafe⟩
  | optional hkeys hform =>
      rw [Value.case, isVariantContent, isOptionalJson, asObject, Bool.and_eq_true, hasOnlyKeys_iff,
        isAbsentOr_iff hvalue (depth_of_object hdepth)]
      exact ⟨hkeys, _, hform⟩
  | list hkeys hforms =>
      rw [Value.case, isVariantContent, isListJson, asObject, Bool.and_eq_true, hasOnlyKeys_iff,
        isAbsentOr_array_iff hvalue (depth_of_object hdepth)]
      exact ⟨hkeys, _, hforms⟩
  | textMap hkeys hforms =>
      rw [Value.case, isVariantContent, isTextMapJson, asObject, Bool.and_eq_true, hasOnlyKeys_iff,
        isAbsentOr_array_iff htextEntry (depth_of_object hdepth)]
      exact ⟨hkeys, _, hforms⟩
  | genMap hkeys hforms =>
      rw [Value.case, isVariantContent, isGenMapJson, asObject, Bool.and_eq_true, hasOnlyKeys_iff,
        isAbsentOr_array_iff hgenEntry (depth_of_object hdepth)]
      exact ⟨hkeys, _, hforms⟩
  | record hkeys hid hforms =>
      rw [Value.case, isVariantContent, isNestedRecordJson, asObject, Bool.and_eq_true, Bool.and_eq_true,
        hasOnlyKeys_iff, isAbsentOr_iff hidentifier (depth_of_object hdepth),
        isAbsentOr_array_iff hfield (depth_of_object hdepth)]
      exact ⟨⟨hkeys, _, hid⟩, _, hforms⟩
  | variant hkeys hid hconstructor hform =>
      rw [Value.case, isVariantContent, isVariantJson, asObject, Bool.and_eq_true, Bool.and_eq_true, Bool.and_eq_true,
        hasOnlyKeys_iff, isAbsentOr_iff hidentifier (depth_of_object hdepth), isPresent_isString_iff,
        isPresent_iff hvalue (depth_of_object hdepth)]
      exact ⟨⟨⟨hkeys, _, hid⟩, _, hconstructor⟩, _, hform⟩
  | enum hkeys hid hconstructor =>
      rw [Value.case, isVariantContent, isEnumJson, asObject, Bool.and_eq_true, Bool.and_eq_true, hasOnlyKeys_iff,
        isAbsentOr_iff hidentifier (depth_of_object hdepth), isPresent_isString_iff]
      exact ⟨⟨hkeys, _, hid⟩, _, hconstructor⟩
  | _ => rfl

end Values

theorem variantOf_eq_some {key : String} {valueCase : ValueCase} :
    variantOf key = some valueCase ↔ valueCase.key = key := by
  constructor
  · intro h
    exact of_decide_eq_true (List.find?_some (p := fun valueCase : ValueCase => decide (valueCase.key = key)) h)
  · rintro rfl
    cases valueCase <;> decide

/-- What `isValueJson` accepts one level further up. -/
theorem isValueJsonStep_exact {isValueJson : Json → Bool} {depth : Nat}
    (hvalue : Exact isValueJson (ValueForm writtenOut) depth) :
    Exact (isValueJsonStep isValueJson) (ValueForm writtenOut) (depth + 1) := by
  intro json hdepth
  constructor
  · intro h
    unfold isValueJsonStep at h
    split at h
    · rename_i key content hobject
      obtain rfl := asObject_eq_some.mp hobject
      split at h
      · rename_i valueCase hvariant
        have hcontent : content.depth ≤ depth + 1 := by
          have hless := depth_of_object hdepth
          rw [depthOfProperties] at hless
          omega
        obtain ⟨value, rfl, hform⟩ := exists_content hvalue hcontent h
        rw [← variantOf_eq_some.mp hvariant]
        exact ⟨value, .of hform⟩
      · cases h
    · cases h
  · rintro ⟨value, hform⟩
    cases hform with
    | of hform =>
        rename_i content
        have hcontent : content.depth ≤ depth + 1 := by
          have hless := depth_of_object hdepth
          rw [depthOfProperties] at hless
          omega
        rw [isValueJsonStep, asObject]
        simp only [variantOf_eq_some.mpr rfl]
        exact hform.accepted hvalue hcontent

theorem isValueJsonWithin_exact (depth : Nat) : Exact (isValueJsonWithin depth) (ValueForm writtenOut) depth := by
  induction depth with
  | zero =>
      intro json hdepth
      constructor
      · exact nofun
      · rintro ⟨value, hform⟩
        cases hform with
        | of hform =>
            rw [Json.depth] at hdepth
            omega
  | succ depth ih => exact isValueJsonStep_exact ih

theorem isValueJson_exact (depth : Nat) : Exact isValueJson (ValueForm writtenOut) depth :=
  fun json _ => isValueJsonWithin_exact json.depth json le_rfl

/-- The recognizer of payloads finds the forms of records that are written out. -/
theorem isRecordWireJson_iff {json : Json} :
    isRecordWireJson json = true ↔ ∃ record, RecordForm writtenOut record json := by
  have hidentifier : Exact isIdentifierJson (IdentifierForm writtenOut) json.depth := isIdentifierJson_exact
  have hfield := (isRecordFieldJson_exact (isValueJson_exact json.depth)).mono (Nat.le_succ json.depth)
  cases json with
  | object properties =>
      have hdepth := depth_of_object (Nat.le_succ (Json.object properties).depth)
      rw [isRecordWireJson, asObject, Bool.and_eq_true, Bool.and_eq_true, hasOnlyKeys_iff,
        isAbsentOr_iff hidentifier hdepth, isPresent_array_iff hfield hdepth]
      constructor
      · rintro ⟨⟨hkeys, recordId, hid⟩, fields, hforms⟩
        exact ⟨⟨recordId, fields⟩, .of hkeys hid hforms⟩
      · rintro ⟨record, hform⟩
        cases hform with
        | of hkeys hid hforms => exact ⟨⟨hkeys, _, hid⟩, _, hforms⟩
  | _ =>
      constructor
      · exact nofun
      · rintro ⟨record, hform⟩
        cases hform

/-! ## Payloads -/

/-- A record with one field, the owner Alice. -/
def aliceRecord : Record := ⟨none, [("owner", .party "Alice")]⟩

def alicePayload : Json :=
  .object [("fields", .array [.object [("label", .string "owner"), ("value", .object [("party", .string "Alice")])]])]

theorem alicePayload_form : RecordForm writtenOut aliceRecord alicePayload :=
  .of (by simp [OnlyKeys]) .none
    (.present (.cons (.of (by simp [OnlyKeys]) .present (.some (.of .party))) .nil))

end CantonSdk.DamlValues.EventSource
