import CantonSdk.Base.Calendar
import CantonSdk.Commands.JsonMapper
import CantonSdk.DamlValues.Fuel

/-!
# Reading the JSON of values

The JSON encoding of DAML values, as the ledger reads it at a type. Numbers may be strings, records may be
arrays of their fields, optional fields may be missing, and what is in a nested optional stands in an array.
-/

set_option linter.all false

namespace CantonSdk.Commands

open CantonSdk.Base CantonSdk.DamlValues

/-! ## Text -/

/-- The number that digits spell. -/
def digitsNumber (digits : List Char) : Option Nat :=
  if digits.all Char.isDigit && !digits.isEmpty then some (Nat.ofDigitChars 10 digits 0) else none

/-- The day that is this many days after the first of March of the year zero, relative to 1970-01-01. -/
def daysOfDate (year month day : Nat) : Int :=
  let shiftedYear : Int := if month ≤ 2 then year - 1 else year
  let monthFromMarch := if 2 < month then month - 3 else month + 9
  let era := shiftedYear / 400
  let yearOfEra := (shiftedYear % 400).toNat
  era * 146097 + (yearOfEra * 365 + yearOfEra / 4 - yearOfEra / 100 + (153 * monthFromMarch + 2) / 5 + day - 1) - 719468

/-- `YYYY-MM-DD`. -/
def readDate (text : String) : Option Int :=
  match text.toList.splitOn '-' with
  | [year, month, day] => do
      let epochDay := daysOfDate (← digitsNumber year) (← digitsNumber month) (← digitsNumber day)
      if isoDay epochDay = text then some epochDay else none
  | _ => none

/-- `YYYY-MM-DDTHH:MM:SSZ`, with at most six digits after a point. -/
def readTimestamp (text : String) : Option Int :=
  match text.toList.splitOn 'T' with
  | [date, time] =>
      match (time.filter fun c => c ≠ 'Z').splitOn ':' with
      | [hours, minutes, seconds] => do
          let (second, fraction) := Query.Grpc.splitPoint seconds
          let digits := fraction.getD []
          let epochDay ← readDate (String.ofList date)
          let ofDay := (← digitsNumber hours) * 3600 + (← digitsNumber minutes) * 60 + (← digitsNumber second)
          let subSecond ← digitsNumber (digits ++ List.replicate (6 - digits.length) '0')
          if digits.length ≤ 6 ∧ time.getLast? = some 'Z' ∧ ofDay < 86400 then
            some ((epochDay * 86400 + ofDay) * 1000000 + subSecond)
          else none
      | _ => none
  | _ => none

example : readDate "2022-01-08" = some 19000 := by decide +kernel

/-! ## Values -/

def int64InRange (n : Int) : Option Meaning :=
  if -9223372036854775808 ≤ n ∧ n ≤ 9223372036854775807 then some (.int64 n) else none

/-- The properties of an object that are printed. -/
def printedProperties (properties : List (String × DamlValue)) : List (String × DamlValue) :=
  properties.filter fun property =>
    match property.2 with
    | .undefined => false
    | _ => true

section Reading

-- the reading of parts
variable (read : DamlValue → DamlTypeDescriptor → Option Meaning)

def readEntry (element : DamlTypeDescriptor) (entry : String × DamlValue) : Option (String × Meaning) :=
  (read entry.2 element).map (entry.1, ·)

def readPair (key element : DamlTypeDescriptor) (entry : DamlValue) : Option (Meaning × Meaning) :=
  match entry with
  | .array [first, second] => (read first key).bind fun keyMeaning => (read second element).map (keyMeaning, ·)
  | _ => none

/-- A field of an object; optional fields may be missing. -/
def readField (properties : List (String × DamlValue)) (field : RecordField DamlTypeDescriptor) : Option Meaning :=
  match properties.find? fun property => decide (property.1 = field.damlLabel) with
  | some property => read property.2 field.type
  | none =>
      match field.type with
      | .optional _ => some .absent
      | _ => none

def readOptional (json : DamlValue) (element : DamlTypeDescriptor) : Option Meaning :=
  match json, element with
  | .null, _ => some .absent
  | .array [], .optional _ => some (.present .absent)
  | .array [inner], .optional _ => (read inner element).map .present
  | _, .optional _ => none
  | _, _ => (read json element).map .present

def readVariant (properties : List (String × DamlValue)) (constructors : List (VariantConstructor DamlTypeDescriptor)) :
    Option Meaning :=
  if (properties.map Prod.fst).Perm ["tag", "value"] then
    match properties.find? fun property => decide (property.1 = "tag"),
        properties.find? fun property => decide (property.1 = "value") with
    | some (_, .string tag), some (_, value) =>
        (constructors.find? fun candidate => decide (candidate.constructorName = tag)).bind fun found =>
          (read value found.payload).map (.variant tag)
    | _, _ => none
  else none

def readJsonValue (json : DamlValue) (descriptor : DamlTypeDescriptor) : Option Meaning :=
  match descriptor, json with
  | .primitive .unit _, .object properties =>
      if (printedProperties properties).isEmpty then some .unit else none
  | .primitive .bool _, .bool value => some (.bool value)
  | .primitive .int64 _, .integer value => int64InRange value
  | .primitive .int64 _, .string text => int64Meaning text
  | .primitive .date _, .string text => (readDate text).map .date
  | .primitive .timestamp _, .string text => (readTimestamp text).map .timestamp
  | .primitive .numeric numericScale, .string text => numericMeaning numericScale text
  | .primitive .numeric numericScale, .fraction text => numericMeaning numericScale text
  | .primitive .numeric numericScale, .integer value => numericMeaning numericScale (toString value)
  | .primitive .party _, .string party => partyMeaning party
  | .primitive .text _, .string text => some (.text text)
  | .contractId _, .string contractId => contractIdMeaning contractId
  | .optional element, json => readOptional read json element
  | .list element, .array items => (readAll (read · element) items).map .list
  | .textMap element, .object properties =>
      if ((printedProperties properties).map Prod.fst).Nodup then
        (readAll (readEntry read element) (printedProperties properties)).map .textMap
      else none
  | .genMap key element, .array items => (readAll (readPair read key element) items).map .genMap
  | .record descriptorFields, .object properties =>
      if ((printedProperties properties).map Prod.fst).Nodup ∧
          ∀ property ∈ printedProperties properties, property.1 ∈ descriptorFields.map RecordField.damlLabel then
        (readAll (readField read (printedProperties properties)) descriptorFields).map .record
      else none
  | .record descriptorFields, .array items =>
      if items.length = descriptorFields.length then
        (readAll (fun field => read field.2 field.1.type) (descriptorFields.zip items)).map .record
      else none
  | .variant constructors, .object properties => readVariant read (printedProperties properties) constructors
  | .enum constructors, .string constructorName =>
      if constructorName ∈ constructors then some (.enum constructorName) else none
  | _, _ => none

end Reading

/-- What JSON denotes at a type, where references are resolved in at most `fuel` nested steps. -/
def readJson (registry : Registry) : Nat → DamlValue → DamlTypeDescriptor → Option Meaning
  | 0, _, _ => none
  | fuel + 1, json, .namedReference identity typeArguments =>
      (registry identity typeArguments).bind (readJson registry fuel json)
  | fuel + 1, json, descriptor => readJsonValue (readJson registry fuel) json descriptor

/-- JSON of a type, and what it denotes. -/
def ReadsJson (registry : Registry) (json : DamlValue) (descriptor : DamlTypeDescriptor) (meaning : Meaning) : Prop :=
  ∃ fuel, readJson registry fuel json descriptor = some meaning

section Monotone

variable {read read' : DamlValue → DamlTypeDescriptor → Option Meaning}
  (h : ∀ json descriptor meaning, read json descriptor = some meaning → read' json descriptor = some meaning)

include h

theorem readMap_mono {β : Type} {f : Meaning → β} {json : DamlValue} {descriptor : DamlTypeDescriptor} {result : β}
    (hread : (read json descriptor).map f = some result) : (read' json descriptor).map f = some result := by
  obtain ⟨meaning, hmeaning, rfl⟩ := Option.map_eq_some_iff.mp hread
  exact Option.map_eq_some_iff.mpr ⟨meaning, h _ _ _ hmeaning, rfl⟩

omit h in
theorem readAllMap_mono {α β γ : Type} {step step' : α → Option β} {f : List β → γ} {list : List α} {result : γ}
    (hstep : ∀ entry value, step entry = some value → step' entry = some value)
    (hread : (readAll step list).map f = some result) : (readAll step' list).map f = some result := by
  obtain ⟨values, hvalues, rfl⟩ := Option.map_eq_some_iff.mp hread
  exact Option.map_eq_some_iff.mpr ⟨values, readAll_mono (fun entry _ => hstep entry) hvalues, rfl⟩

theorem readPair_mono {key element : DamlTypeDescriptor} {entry : DamlValue} {result : Meaning × Meaning}
    (hread : readPair read key element entry = some result) : readPair read' key element entry = some result := by
  unfold readPair at hread ⊢
  split at hread
  · obtain ⟨keyMeaning, hkey, hrest⟩ := Option.bind_eq_some_iff.mp hread
    exact Option.bind_eq_some_iff.mpr ⟨keyMeaning, h _ _ _ hkey, readMap_mono h hrest⟩
  · cases hread

theorem readField_mono {properties : List (String × DamlValue)} {field : RecordField DamlTypeDescriptor}
    {result : Meaning} (hread : readField read properties field = some result) :
    readField read' properties field = some result := by
  unfold readField at hread ⊢
  split at hread
  · exact h _ _ _ hread
  · exact hread

theorem readOptional_mono {json : DamlValue} {element : DamlTypeDescriptor} {result : Meaning}
    (hread : readOptional read json element = some result) : readOptional read' json element = some result := by
  unfold readOptional at hread ⊢
  split at hread
  · exact hread
  · exact hread
  · exact readMap_mono h hread
  · cases hread
  · exact readMap_mono h hread

theorem readVariant_mono {properties : List (String × DamlValue)}
    {constructors : List (VariantConstructor DamlTypeDescriptor)} {result : Meaning}
    (hread : readVariant read properties constructors = some result) :
    readVariant read' properties constructors = some result := by
  unfold readVariant at hread ⊢
  split at hread
  · rename_i hnames
    rw [if_pos hnames]
    split at hread
    · obtain ⟨found, hfound, hvalue⟩ := Option.bind_eq_some_iff.mp hread
      refine Option.bind_eq_some_iff.mpr ⟨found, hfound, ?_⟩
      exact readMap_mono h hvalue
    · cases hread
  · cases hread

theorem readJsonValue_mono {json : DamlValue} {descriptor : DamlTypeDescriptor} {meaning : Meaning}
    (hread : readJsonValue read json descriptor = some meaning) :
    readJsonValue read' json descriptor = some meaning := by
  unfold readJsonValue at hread ⊢
  split at hread
  case h_13 => exact readOptional_mono h hread
  case h_14 => exact readAllMap_mono (fun _ _ => h _ _ _) hread
  case h_15 =>
    split at hread
    · rename_i hobject
      rw [if_pos hobject]
      exact readAllMap_mono (fun _ _ => readMap_mono h) hread
    · cases hread
  case h_16 => exact readAllMap_mono (fun _ _ => readPair_mono h) hread
  case h_17 =>
    split at hread
    · rename_i hobject
      rw [if_pos hobject]
      exact readAllMap_mono (fun _ _ => readField_mono h) hread
    · cases hread
  case h_18 =>
    split at hread
    · rename_i hobject
      rw [if_pos hobject]
      exact readAllMap_mono (fun _ _ => h _ _ _) hread
    · cases hread
  case h_19 => exact readVariant_mono h hread
  case h_21 => cases hread
  all_goals exact hread

end Monotone

theorem readJson_succ {registry : Registry} {fuel : Nat} {json : DamlValue} {descriptor : DamlTypeDescriptor}
    {meaning : Meaning} (h : readJson registry fuel json descriptor = some meaning) :
    readJson registry (fuel + 1) json descriptor = some meaning := by
  induction fuel generalizing json descriptor meaning with
  | zero => cases h
  | succ fuel ih =>
      cases descriptor with
      | namedReference identity typeArguments =>
          obtain ⟨resolved, hresolved, hvalue⟩ := Option.bind_eq_some_iff.mp h
          exact Option.bind_eq_some_iff.mpr ⟨resolved, hresolved, ih hvalue⟩
      | _ => exact readJsonValue_mono (fun _ _ _ => ih) h

theorem readJson_of_le {registry : Registry} {fuel more : Nat} {json : DamlValue} {descriptor : DamlTypeDescriptor}
    {meaning : Meaning} (hle : fuel ≤ more) (h : readJson registry fuel json descriptor = some meaning) :
    readJson registry more json descriptor = some meaning := by
  induction hle with
  | refl => exact h
  | step _ ih => exact readJson_succ ih

/-- A template id from its text. -/
def readTemplateId (text : String) : Option TemplateId :=
  match text.toList.splitOn ':' with
  | [moduleName, entityName] => some ⟨"", String.ofList moduleName, String.ofList entityName⟩
  | [packageId, moduleName, entityName] =>
      some ⟨String.ofList packageId, String.ofList moduleName, String.ofList entityName⟩
  | _ => none

end CantonSdk.Commands
