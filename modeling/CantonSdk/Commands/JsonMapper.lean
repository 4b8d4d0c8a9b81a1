import CantonSdk.Commands.GrpcMapper

/-!
# Commands over JSON

The messages that the JSON transport submits. `mapJsonValue` singles out parties, numerics and records; of
every other instance of a class it takes the own properties, as of any object.
-/

set_option linter.all false

namespace CantonSdk.Commands

open CantonSdk.Base CantonSdk.DamlValues

/-- A template id, as the object that it is. -/
def templateIdObject : Option TemplateId → DamlValue
  | none => .undefined
  | some templateId => .object [("packageId", .string templateId.packageId),
      ("moduleName", .string templateId.moduleName), ("entityName", .string templateId.entityName)]

mutual

def mapJsonValue : DamlValue → DamlValue
  | .party value => .string value
  | .numeric value => .string value
  | .record fields _ => .object (mapJsonFields fields)
  | .array items => .array (mapJsonItems items)
  | .object properties => .object (mapJsonFields properties)
  -- the own properties of the other classes
  | .unit => .object []
  | .date daysSinceEpoch => .object [("daysSinceEpoch", .integer daysSinceEpoch)]
  | .timestamp microsecondsSinceEpoch => .object [("microsecondsSinceEpoch", .string microsecondsSinceEpoch)]
  | .contractId value => .object [("value", .string value)]
  | .textMap entries => .object [("entries", .array (mapJsonEntries entries))]
  | .genMap entries => .object [("entries", .array (mapJsonPairs entries))]
  | .variant constructorName value variantId =>
      .object [("constructorName", .string constructorName), ("value", mapJsonValue value),
        ("variantId", templateIdObject variantId)]
  | .enum constructorName enumId =>
      .object [("constructorName", .string constructorName), ("enumId", templateIdObject enumId)]
  | .undefined => .undefined
  | .null => .null
  | .bool value => .bool value
  | .integer value => .integer value
  | .fraction text => .fraction text
  | .bigint value => .bigint value
  | .string value => .string value

def mapJsonItems : List DamlValue → List DamlValue
  | [] => []
  | item :: rest => mapJsonValue item :: mapJsonItems rest

def mapJsonFields : List (String × DamlValue) → List (String × DamlValue)
  | [] => []
  | (key, item) :: rest => (key, mapJsonValue item) :: mapJsonFields rest

/-- The entries of a text map are arrays of a string and a value. -/
def mapJsonEntries : List (String × DamlValue) → List DamlValue
  | [] => []
  | (key, value) :: rest => .array [.string key, mapJsonValue value] :: mapJsonEntries rest

def mapJsonPairs : List (DamlValue × DamlValue) → List DamlValue
  | [] => []
  | (key, value) :: rest => .array [mapJsonValue key, mapJsonValue value] :: mapJsonPairs rest

end

@[simp] theorem mapJsonItems_eq (items : List DamlValue) : mapJsonItems items = items.map mapJsonValue := by
  induction items with
  | nil => rfl
  | cons item rest ih => rw [mapJsonItems, ih, List.map_cons]

@[simp] theorem mapJsonFields_eq (fields : List (String × DamlValue)) :
    mapJsonFields fields = fields.map fun field => (field.1, mapJsonValue field.2) := by
  induction fields with
  | nil => rfl
  | cons field rest ih => rw [mapJsonFields, ih, List.map_cons]

@[simp] theorem mapJsonEntries_eq (entries : List (String × DamlValue)) :
    mapJsonEntries entries = entries.map fun entry => .array [.string entry.1, mapJsonValue entry.2] := by
  induction entries with
  | nil => rfl
  | cons entry rest ih => rw [mapJsonEntries, ih, List.map_cons]

@[simp] theorem mapJsonPairs_eq (entries : List (DamlValue × DamlValue)) :
    mapJsonPairs entries = entries.map fun entry => .array [mapJsonValue entry.1, mapJsonValue entry.2] := by
  induction entries with
  | nil => rfl
  | cons entry rest ih => rw [mapJsonPairs, ih, List.map_cons]

def formatTemplateId (templateId : TemplateId) : String :=
  if templateId.packageId.isEmpty then templateId.moduleName ++ ":" ++ templateId.entityName
  else templateId.packageId ++ ":" ++ templateId.moduleName ++ ":" ++ templateId.entityName

def mapJsonCommand : LedgerCommand → DamlValue
  | .create templateId createArguments =>
      .object [("CreateCommand", .object [
        ("templateId", .string (formatTemplateId templateId.toTemplateId)),
        ("createArguments", mapJsonValue (.object createArguments.fields))])]
  | .exercise templateId contractId choice choiceArgument =>
      .object [("ExerciseCommand", .object [
        ("templateId", .string (formatTemplateId templateId.toTemplateId)),
        ("contractId", .string contractId.1),
        ("choice", .string choice.1),
        ("choiceArgument", mapJsonValue choiceArgument)])]
  | .exerciseByKey templateId contractKey choice choiceArgument =>
      .object [("ExerciseByKeyCommand", .object [
        ("templateId", .string (formatTemplateId templateId.toTemplateId)),
        ("contractKey", mapJsonValue contractKey.1),
        ("choice", .string choice.1),
        ("choiceArgument", mapJsonValue choiceArgument)])]
  | .createAndExercise templateId createArguments choice choiceArgument =>
      .object [("CreateAndExerciseCommand", .object [
        ("templateId", .string (formatTemplateId templateId.toTemplateId)),
        ("createArguments", mapJsonValue (.object createArguments.fields)),
        ("choice", .string choice.1),
        ("choiceArgument", mapJsonValue choiceArgument)])]

end CantonSdk.Commands
