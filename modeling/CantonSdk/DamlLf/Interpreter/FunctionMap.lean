import CantonSdk.DamlLf.Interpreter.RuntimeValue

/-!
# Values under another reading of functions

A value that holds functions of one kind becomes one that holds functions of another: every function is replaced,
and nothing else is changed.
-/

set_option linter.all false

namespace CantonSdk.DamlLf.Interpreter

variable {κ μ ν : Type}

mutual

def RuntimeValue.map (f : κ → μ) : RuntimeValue κ → RuntimeValue μ
  | .unit => .unit
  | .boolean value => .boolean value
  | .text value => .text value
  | .numeric value => .numeric value
  | .int64 value => .int64 value
  | .party value => .party value
  | .contractId value => .contractId value
  | .contractIds value => .contractIds value
  | .ledgerValue value contractId => .ledgerValue (value.map f) contractId
  | .record fields => .record (mapFields f fields)
  | .builtin builtinFunction appliedArguments => .builtin builtinFunction (mapValues f appliedArguments)
  | .closure function => .closure (f function)

def mapValues (f : κ → μ) : List (RuntimeValue κ) → List (RuntimeValue μ)
  | [] => []
  | value :: values => value.map f :: mapValues f values

def mapFields (f : κ → μ) : List (String × RuntimeValue κ) → List (String × RuntimeValue μ)
  | [] => []
  | (name, value) :: fields => (name, value.map f) :: mapFields f fields

def Raw.map (f : κ → μ) : Raw κ → Raw μ
  | .undefined => .undefined
  | .null => .null
  | .boolean value => .boolean value
  | .number value => .number value
  | .string value => .string value
  | .array items => .array (mapItems f items)
  | .object properties => .object (mapProperties f properties)
  | .inherited name => .inherited name
  | .runtime value => .runtime (value.map f)

def mapItems (f : κ → μ) : List (Raw κ) → List (Raw μ)
  | [] => []
  | item :: items => item.map f :: mapItems f items

def mapProperties (f : κ → μ) : List (String × Raw κ) → List (String × Raw μ)
  | [] => []
  | (name, value) :: properties => (name, value.map f) :: mapProperties f properties

end

theorem mapValues_eq (f : κ → μ) (values : List (RuntimeValue κ)) : mapValues f values = values.map (·.map f) := by
  induction values with
  | nil => rfl
  | cons value values ih => rw [mapValues, ih, List.map_cons]

theorem mapItems_eq (f : κ → μ) (items : List (Raw κ)) : mapItems f items = items.map (·.map f) := by
  induction items with
  | nil => rfl
  | cons item items ih => rw [mapItems, ih, List.map_cons]

theorem mapFields_eq (f : κ → μ) (fields : List (String × RuntimeValue κ)) :
    mapFields f fields = fields.map fun field => (field.1, field.2.map f) := by
  induction fields with
  | nil => rfl
  | cons field fields ih => rw [mapFields, ih, List.map_cons]

theorem mapProperties_eq (f : κ → μ) (properties : List (String × Raw κ)) :
    mapProperties f properties = properties.map fun property => (property.1, property.2.map f) := by
  induction properties with
  | nil => rfl
  | cons property properties ih => rw [mapProperties, ih, List.map_cons]

end CantonSdk.DamlLf.Interpreter
