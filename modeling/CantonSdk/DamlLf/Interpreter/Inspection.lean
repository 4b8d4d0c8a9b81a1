import CantonSdk.DamlLf.Interpreter.LedgerRecord

/-!
# Looking into values

What the evaluator does with a value that has been evaluated, without evaluating anything: which alternative of a case
expression it matches and what that binds, and what a projection or an update makes of a record.
-/

set_option linter.all false

namespace CantonSdk.DamlLf.Interpreter

open CantonSdk.Base

variable {κ : Type}

/-! ## Case expressions -/

def matchesBuiltinConstructor : Option BuiltinConstructor → RuntimeValue κ → Bool
  | some .true, .boolean value => value
  | some .false, .boolean value => !value
  | some .unit, .unit => true
  | _, _ => false

def matchesCaseAlternative (pattern : CasePattern) (runtimeValue : RuntimeValue κ) : Bool :=
  match pattern.patternKind with
  | .default => true
  | .builtinCon => matchesBuiltinConstructor pattern.builtinConstructor runtimeValue
  | .optionalNone => runtimeValue.isUnit
  | .optionalSome => !runtimeValue.isUnit
  | .enum =>
      match runtimeValue with
      | .text value => pattern.constructorName == some value
      | _ => false
  | .nil =>
      match unwrapRuntimeValue runtimeValue with
      | .array items => items.isEmpty
      | _ => false
  | .cons =>
      match unwrapRuntimeValue runtimeValue with
      | .array items => !items.isEmpty
      | _ => false
  | .variant =>
      match readMarker "constructor" (unwrapRuntimeValue runtimeValue) with
      | some constructorName => pattern.constructorName == some constructorName
      | none => false

/-- A name that a pattern may leave out, with the value it is bound to. -/
def binding (name : Option String) (value : RuntimeValue κ) : List (String × RuntimeValue κ) :=
  match name with
  | some name => [(name, value)]
  | none => []

/-- What a matching alternative binds in a scope of its own; there is no such scope for the other patterns, nor for
a variant without a value. -/
def alternativeBindings (pattern : CasePattern) (scrutinee : RuntimeValue κ) :
    Option (List (String × RuntimeValue κ)) :=
  let rawValue := unwrapRuntimeValue scrutinee
  match pattern.patternKind, rawValue with
  | .optionalSome, _ => some (binding pattern.binderName (hydrateRuntimeValue rawValue none))
  | .cons, .array (first :: rest) =>
      some (binding pattern.headBinderName (hydrateRuntimeValue first none)
        ++ binding pattern.tailBinderName (hydrateRuntimeValue (.array rest) none))
  | .variant, .object properties =>
      (properties.lookup "value").map fun value => binding pattern.binderName (hydrateRuntimeValue value none)
  | _, _ => none

def scrutineeDescription : RuntimeValue κ → String
  | .builtin builtinFunction appliedArguments =>
      builtinFunction.text ++ "(" ++ ", ".intercalate (appliedArguments.map RuntimeValue.kind) ++ ")"
  | value => value.kind

def noMatchingAlternative (definitionName : String) (alternatives : List (CasePattern × Expression))
    (scrutinee : RuntimeValue κ) : HostError :=
  let patterns := ", ".intercalate (alternatives.map fun alternative => alternative.1.patternKind.text)
  .validation (s!"daml lf case expression in '{definitionName}' did not match any alternative for "
    ++ s!"'{scrutineeDescription scrutinee}' across [{patterns}]")

/-! ## Record projections and updates -/

-- `getRecordFieldsOrThrow` of the semantic model; there are none where it throws
variable (getRecordFields : TypeConReference → Option (List DamlLfField))

def projectField (recordValue : RuntimeValue κ) (fieldName : String) : Except HostError (RuntimeValue κ) :=
  match recordValue with
  | .record fields =>
      match fields.lookup fieldName with
      | some fieldValue => .ok fieldValue
      | none => .error (.validation s!"daml lf record projection could not find field '{fieldName}'")
  | _ =>
      match (unwrapRuntimeValue recordValue).properties? with
      | some rawValue =>
          .ok (hydrateRuntimeValue (readLedgerRecordField getRecordFields rawValue fieldName) none)
      | none => .error (.validation s!"daml lf record projection requires an object value for field '{fieldName}'")

/-- The record value that an update makes of a record, once the value of the field is known. -/
def updateField (recordValue : RuntimeValue κ) (fieldName : String) :
    Except HostError (RuntimeValue κ → RuntimeValue κ) :=
  match recordValue with
  | .record fields => .ok fun nextValue => createRecordRuntimeValue (assigned (fields ++ [(fieldName, nextValue)]))
  | _ =>
      match (unwrapRuntimeValue recordValue).properties? with
      | some rawValue =>
          .ok fun nextValue =>
            let update := createLedgerRecordFieldUpdate getRecordFields rawValue fieldName (unwrapRuntimeValue nextValue)
            hydrateRuntimeValue (.object (assigned (rawValue ++ [update]))) none
      | none => .error (.validation s!"daml lf record update requires an object value for field '{fieldName}'")

/-! ## List constructions -/

def constructList (front : List (Raw κ)) : Raw κ → Except HostError (RuntimeValue κ)
  | .array items => .ok (hydrateRuntimeValue (.array (front ++ items)) none)
  | _ => .error (.validation "daml lf list construction requires an array tail")

end CantonSdk.DamlLf.Interpreter
