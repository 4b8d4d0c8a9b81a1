import CantonSdk.DamlValues.Descriptor

/-!
# Commands over gRPC

Ledger commands, and the messages that the gRPC transport submits for them. `mapValue` looks at the class of a
value and at nothing else, and what it does not recognise becomes a record of the properties that it finds.
-/

set_option linter.all false

namespace CantonSdk.Commands

open CantonSdk.Base CantonSdk.DamlValues

/-- `DamlRecord`, where it is the argument of a command. -/
structure DamlRecord where
  fields : List (String × DamlValue)
  recordId : Option TemplateId

/-- A template id that the constructors of commands accept. -/
structure CommandTemplateId extends TemplateId where
  named : moduleName ≠ "" ∧ entityName ≠ ""

/-- Text that the constructors of commands accept for contract ids and choices. -/
abbrev RequiredText := {text : String // text ≠ ""}

inductive LedgerCommand
  | create (templateId : CommandTemplateId) (createArguments : DamlRecord)
  | exercise (templateId : CommandTemplateId) (contractId choice : RequiredText) (choiceArgument : DamlValue)
  | exerciseByKey (templateId : CommandTemplateId) (contractKey : {key : DamlValue // key ≠ .undefined})
      (choice : RequiredText) (choiceArgument : DamlValue)
  | createAndExercise (templateId : CommandTemplateId) (createArguments : DamlRecord) (choice : RequiredText)
      (choiceArgument : DamlValue)

/-! ## Messages -/

/-- A `Value` of the Ledger API as it is submitted: every part is there, and an optional is always empty. -/
inductive CommandValue
  | unit
  | bool (value : Bool)
  | int64 (value : String)
  | date (epochDay : Int)
  | timestamp (micros : String)
  | numeric (value : String)
  | party (value : String)
  | text (value : String)
  | contractId (value : String)
  | optional
  | list (elements : List CommandValue)
  | textMap (entries : List (String × CommandValue))
  | genMap (entries : List (CommandValue × CommandValue))
  | record (recordId : Option TemplateId) (fields : List (String × CommandValue))
  | variant (variantId : Option TemplateId) (constructorName : String) (value : CommandValue)
  | enum (enumId : Option TemplateId) (constructorName : String)

/-- `Record` of the Ledger API. -/
structure GrpcRecord where
  recordId : Option TemplateId
  fields : List (String × CommandValue)

/-- `Command` of the Ledger API. -/
inductive Command
  | create (templateId : TemplateId) (createArguments : GrpcRecord)
  | exercise (templateId : TemplateId) (contractId choice : String) (choiceArgument : CommandValue)
  | exerciseByKey (templateId : TemplateId) (contractKey : CommandValue) (choice : String)
      (choiceArgument : CommandValue)
  | createAndExercise (templateId : TemplateId) (createArguments : GrpcRecord) (choice : String)
      (choiceArgument : CommandValue)

/-! ## Mapping -/

mutual

def mapValue : DamlValue → CommandValue
  | .unit => .unit
  | .date daysSinceEpoch => .date daysSinceEpoch
  | .timestamp microsecondsSinceEpoch => .timestamp microsecondsSinceEpoch
  | .textMap entries => .textMap (mapFields entries)
  | .genMap entries => .genMap (mapPairs entries)
  | .variant constructorName value variantId => .variant variantId constructorName (mapValue value)
  | .enum constructorName enumId => .enum enumId constructorName
  | .record fields recordId => .record recordId (mapFields fields)
  | .null | .undefined => .optional
  | .party value => .party value
  | .contractId value => .contractId value
  | .numeric value => .numeric value
  | .string value => .text value
  | .bool value => .bool value
  | .integer value => .int64 (toString value)
  | .fraction text => .numeric text
  | .array items => .list (mapElements items)
  -- the fall-through branch: a bigint has no entries
  | .bigint _ => .record none []
  | .object properties => .record none (mapFields properties)

def mapElements : List DamlValue → List CommandValue
  | [] => []
  | item :: rest => mapValue item :: mapElements rest

def mapFields : List (String × DamlValue) → List (String × CommandValue)
  | [] => []
  | (label, value) :: rest => (label, mapValue value) :: mapFields rest

def mapPairs : List (DamlValue × DamlValue) → List (CommandValue × CommandValue)
  | [] => []
  | (key, value) :: rest => (mapValue key, mapValue value) :: mapPairs rest

end

@[simp] theorem mapElements_eq (items : List DamlValue) : mapElements items = items.map mapValue := by
  induction items with
  | nil => rfl
  | cons item rest ih => rw [mapElements, ih, List.map_cons]

@[simp] theorem mapFields_eq (fields : List (String × DamlValue)) :
    mapFields fields = fields.map fun field => (field.1, mapValue field.2) := by
  induction fields with
  | nil => rfl
  | cons field rest ih => rw [mapFields, ih, List.map_cons]

@[simp] theorem mapPairs_eq (entries : List (DamlValue × DamlValue)) :
    mapPairs entries = entries.map fun entry => (mapValue entry.1, mapValue entry.2) := by
  induction entries with
  | nil => rfl
  | cons entry rest ih => rw [mapPairs, ih, List.map_cons]

/-- `mapRecord`, of an instance of the record class. -/
def mapRecord (payload : DamlRecord) : GrpcRecord := ⟨payload.recordId, mapFields payload.fields⟩

def mapGrpcLedgerCommand : LedgerCommand → Command
  | .create templateId createArguments => .create templateId.toTemplateId (mapRecord createArguments)
  | .exercise templateId contractId choice choiceArgument =>
      .exercise templateId.toTemplateId contractId.1 choice.1 (mapValue choiceArgument)
  | .exerciseByKey templateId contractKey choice choiceArgument =>
      .exerciseByKey templateId.toTemplateId (mapValue contractKey.1) choice.1 (mapValue choiceArgument)
  | .createAndExercise templateId createArguments choice choiceArgument =>
      .createAndExercise templateId.toTemplateId (mapRecord createArguments) choice.1 (mapValue choiceArgument)

/-! ## The submitted value -/

mutual

/-- The Ledger API value of a message, without the type identifiers that it may omit. -/
def CommandValue.value : CommandValue → Query.Grpc.Value
  | .unit => .unit
  | .bool value => .bool value
  | .int64 value => .int64 value
  | .date epochDay => .date epochDay
  | .timestamp micros => .timestamp micros
  | .numeric value => .numeric value
  | .party value => .party value
  | .text value => .text value
  | .contractId value => .contractId value
  | .optional => .optional none
  | .list elements => .list (elementValues elements)
  | .textMap entries => .textMap (fieldValues entries)
  | .genMap entries => .genMap (pairValues entries)
  | .record _ fields => .record (fieldValues fields)
  | .variant _ constructorName value => .variant constructorName (some value.value)
  | .enum _ constructorName => .enum constructorName

def elementValues : List CommandValue → List Query.Grpc.Value
  | [] => []
  | element :: rest => element.value :: elementValues rest

def fieldValues : List (String × CommandValue) → List (String × Option Query.Grpc.Value)
  | [] => []
  | (label, value) :: rest => (label, some value.value) :: fieldValues rest

def pairValues : List (CommandValue × CommandValue) → List (Option Query.Grpc.Value × Option Query.Grpc.Value)
  | [] => []
  | (key, value) :: rest => (some key.value, some value.value) :: pairValues rest

end

/-- What the Ledger API receives of a value. -/
def submitted (value : DamlValue) : Query.Grpc.Value := (mapValue value).value

/-- The fields of a record, or the entries of a text map, as they are received. -/
def submittedFields (fields : List (String × DamlValue)) : List (String × Option Query.Grpc.Value) :=
  fields.map fun field => (field.1, some (submitted field.2))

theorem fieldValues_mapFields (fields : List (String × DamlValue)) :
    fieldValues (mapFields fields) = submittedFields fields := by
  induction fields with
  | nil => rfl
  | cons field rest ih => rw [mapFields, fieldValues, ih]; rfl

theorem submitted_array (items : List DamlValue) : submitted (.array items) = .list (items.map submitted) := by
  have helements : elementValues (mapElements items) = items.map submitted := by
    induction items with
    | nil => rfl
    | cons item rest ih => rw [mapElements, elementValues, ih]; rfl
  rw [submitted, mapValue, CommandValue.value, helements]

theorem submitted_textMap (entries : List (String × DamlValue)) :
    submitted (.textMap entries) = .textMap (submittedFields entries) := by
  rw [submitted, mapValue, CommandValue.value, fieldValues_mapFields]

theorem submitted_genMap (entries : List (DamlValue × DamlValue)) :
    submitted (.genMap entries)
      = .genMap (entries.map fun entry => (some (submitted entry.1), some (submitted entry.2))) := by
  have hentries : pairValues (mapPairs entries)
      = entries.map fun entry => (some (submitted entry.1), some (submitted entry.2)) := by
    induction entries with
    | nil => rfl
    | cons entry rest ih => rw [mapPairs, pairValues, ih]; rfl
  rw [submitted, mapValue, CommandValue.value, hentries]

theorem submitted_record (fields : List (String × DamlValue)) (recordId : Option TemplateId) :
    submitted (.record fields recordId) = .record (submittedFields fields) := by
  rw [submitted, mapValue, CommandValue.value, fieldValues_mapFields]

/-- An object is submitted as a record, as an instance of the record class is. -/
theorem submitted_object (properties : List (String × DamlValue)) :
    submitted (.object properties) = .record (submittedFields properties) := by
  rw [submitted, mapValue, CommandValue.value, fieldValues_mapFields]

/-- No value is submitted as a present optional. -/
theorem submitted_ne_present (value : DamlValue) (inner : Query.Grpc.Value) :
    submitted value ≠ .optional (some inner) := by
  cases value <;> rw [submitted, mapValue, CommandValue.value] <;> exact nofun

end CantonSdk.Commands
