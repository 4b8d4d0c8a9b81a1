import CantonSdk.DamlLf.Interpreter.ExactDecimal
import CantonSdk.DamlLf.Interpreter.RuntimeValue

/-!
# Built-in functions

`DamlLfBuiltinDispatch`: what a built-in function makes of the arguments it was given before and those it is given
now. With too few arguments it is the same function with more arguments. Which arguments count differs from
function to function: all, those that are not unit, or those that could be numbers.
-/

set_option linter.all false

namespace CantonSdk.DamlLf.Interpreter

open CantonSdk.Base

/-! ## `BigInt` of text -/

def digitValue (c : Char) : Nat :=
  if c.isDigit then c.toNat - '0'.toNat else if c.isLower then c.toNat - 'a'.toNat + 10 else c.toNat - 'A'.toNat + 10

def isDigitOf (radix : Nat) (c : Char) : Bool :=
  c.isDigit && digitValue c < radix || radix == 16 && (decide ('a' ≤ c ∧ c ≤ 'f') || decide ('A' ≤ c ∧ c ≤ 'F'))

/-- The radix that text starts with, and the digits behind it. -/
def splitRadix : List Char → Nat × List Char
  | '0' :: 'x' :: digits => (16, digits)
  | '0' :: 'X' :: digits => (16, digits)
  | '0' :: 'o' :: digits => (8, digits)
  | '0' :: 'O' :: digits => (8, digits)
  | '0' :: 'b' :: digits => (2, digits)
  | '0' :: 'B' :: digits => (2, digits)
  | digits => (10, digits)

/-- Digits with no sign, or decimal digits with one. -/
def splitNumberSign (radix : Nat) (digits : List Char) : Bool × List Char :=
  match digits with
  | '+' :: unsigned => if radix = 10 then (false, unsigned) else (false, digits)
  | '-' :: unsigned => if radix = 10 then (true, unsigned) else (false, digits)
  | _ => (false, digits)

/-- `BigInt(text)`. -/
def bigIntOfText (text : String) : Except HostError Int :=
  let trimmed := trim text.toList
  if trimmed.isEmpty then .ok 0
  else
    let (radix, digits) := splitRadix trimmed
    let (negative, unsigned) := splitNumberSign radix digits
    if !unsigned.isEmpty && unsigned.all (isDigitOf radix) then
      let magnitude : Int := (unsigned.foldl (fun value c => value * radix + digitValue c) 0 : Nat)
      .ok (if negative then -magnitude else magnitude)
    else .error (.syntaxError s!"Cannot convert {text} to a BigInt")

variable {κ : Type}

/-! ## Reading arguments -/

def readStringLikeOrUndefined : RuntimeValue κ → Option String
  | .text value => some value
  | .numeric value => some value
  | .party value => some value
  | .int64 value => some value
  | .ledgerValue (.string value) _ => some value
  | _ => none

def readInt64 : RuntimeValue κ → Except HostError Int
  | .int64 value => bigIntOfText value
  | .text value => bigIntOfText value
  | .ledgerValue (.string value) _ => bigIntOfText value
  | .ledgerValue (.number value) _ => .ok value
  | value => .error (.validation s!"daml lf builtin expected int64, got '{value.kind}'")

def readText : RuntimeValue κ → Except HostError String
  | .text value => .ok value
  | value => .error (.validation s!"daml lf builtin expected text, got '{value.kind}'")

def readPartyLike : RuntimeValue κ → Except HostError String
  | .party value => .ok value
  | .text value => .ok value
  | .ledgerValue (.string value) _ => .ok value
  | value => .error (.validation s!"daml lf builtin expected party, got '{value.kind}'")

def readTextLike : RuntimeValue κ → Except HostError String
  | .text value => .ok value
  | .numeric value => .ok value
  | .int64 value => .ok value
  | .ledgerValue (.string value) _ => .ok value
  | .ledgerValue (.number value) _ => .ok (toString value)
  | value => .error (.validation s!"daml lf builtin expected a text-compatible value, got '{value.kind}'")

/-- The text under a marker that an object defines itself. -/
def readMarker (markerKey : String) : Raw κ → Option String
  | .object properties =>
      match properties.lookup markerKey with
      | some (.string value) => some value
      | _ => none
  | _ => none

def readContractIdLike (value : RuntimeValue κ) : Except HostError String :=
  let unexpected : HostError := .validation s!"daml lf builtin expected contract id, got '{value.kind}'"
  match value with
  | .contractId value => .ok value
  | .text value => .ok value
  | .ledgerValue _ (some contractId) => .ok contractId
  | .ledgerValue raw none =>
      match readMarker contractIdMarkerKey raw with
      | some contractId => .ok contractId
      | none => .error unexpected
  | _ => .error unexpected

def readExactDecimal (value : RuntimeValue κ) : Except HostError ExactDecimal :=
  match value with
  | .numeric text => parseExactDecimal text
  | value => (readTextLike value).bind parseExactDecimal

def tryReadExactDecimal (value : RuntimeValue κ) : Option ExactDecimal := (readExactDecimal value).toOption

def readNumericScaleWitnessOrThrow (value : RuntimeValue κ) : Except HostError Nat := do
  let text := trim (← readTextLike value).toList
  if isDecimal text then .ok ((splitAtPoint (splitSign text).2).2.getD []).length
  else .error (.validation s!"daml lf builtin expected a numeric scale witness, got '{String.ofList text}'")

def isNumericCompatible : RuntimeValue κ → Bool
  | .int64 _ => true
  | .numeric _ => true
  | .text _ => true
  | .ledgerValue (.string _) _ => true
  | .ledgerValue (.number _) _ => true
  | _ => false

def readStrings : List (Raw κ) → Except HostError (List String)
  | [] => .ok []
  | .string item :: items => (readStrings items).map (item :: ·)
  | _ :: _ => .error (.validation "daml lf builtin expected a text list")

def readTextList : RuntimeValue κ → Except HostError (List String)
  | .ledgerValue (.array items) _ => readStrings items
  | value => .error (.validation s!"daml lf builtin expected a text-list-compatible value, got '{value.kind}'")

def readTextMap : RuntimeValue κ → Except HostError (List (String × Raw κ))
  | .builtin .textmapEmpty [] => .ok []
  | .ledgerValue (.object properties) _ => .ok properties
  | value => .error (.validation s!"daml lf builtin expected a text-map-compatible value, got '{value.kind}'")

/-- An entry of a generic map, with what it has under `key` and under `value`. -/
structure GenMapEntry (κ : Type) where
  entry : Raw κ
  key : Raw κ
  value : Raw κ

def readGenMapEntry : Raw κ → Except HostError (GenMapEntry κ)
  | .object properties =>
      match properties.lookup "key", properties.lookup "value" with
      | some key, some value => .ok ⟨.object properties, key, value⟩
      | _, _ => .error (.validation "daml lf builtin expected a gen-map entry")
  | _ => .error (.validation "daml lf builtin expected a gen-map entry")

def readGenMap : RuntimeValue κ → Except HostError (List (GenMapEntry κ))
  | .builtin .genmapEmpty [] => .ok []
  | .ledgerValue (.array items) _ => items.mapM readGenMapEntry
  | value => .error (.validation s!"daml lf builtin expected a gen-map-compatible value, got '{value.kind}'")

/-! ## Wrapping and unwrapping -/

mutual

def unwrapValue : RuntimeValue κ → Raw κ
  | .record fields => .object (assigned (unwrapFields fields))
  | .contractId value => .object [(contractIdMarkerKey, .string value)]
  | .party value => .object [(partyMarkerKey, .string value)]
  | .unit => .null
  | .boolean value => .boolean value
  | .text value => .string value
  | .numeric value => .string value
  | .int64 value => .string value
  | .contractIds value => .array (value.map .string)
  | .ledgerValue value _ => value
  | .builtin builtinFunction appliedArguments => .runtime (.builtin builtinFunction appliedArguments)
  | .closure function => .runtime (.closure function)

def unwrapFields : List (String × RuntimeValue κ) → List (String × Raw κ)
  | [] => []
  | (name, value) :: fields => (name, unwrapValue value) :: unwrapFields fields

end

def hydrateValue (value : Raw κ) : RuntimeValue κ :=
  match value with
  | .null => .unit
  | .undefined => .unit
  | .string value => .text value
  | .boolean value => .boolean value
  | .number value => .text (toString value)
  | value =>
      match readMarker contractIdMarkerKey value, readMarker partyMarkerKey value with
      | some contractId, _ => .contractId contractId
      | none, some party => .party party
      | none, none => .ledgerValue value none

section Apply

-- how the host writes a function value, with the frame that it belongs to
variable (functionText : κ → String)

def areEqual (left right : RuntimeValue κ) : Bool :=
  match readStringLikeOrUndefined left, readStringLikeOrUndefined right with
  | some leftString, some rightString => leftString == rightString
  | _, _ => left.stringify functionText == right.stringify functionText

def compareValues (left right : RuntimeValue κ) : Except HostError Ordering :=
  match tryReadExactDecimal left, tryReadExactDecimal right with
  | some leftDecimal, some rightDecimal => .ok (compareExactDecimals leftDecimal rightDecimal)
  | _, _ => do
      let leftString ← readTextLike left
      let rightString ← readTextLike right
      return compareText leftString rightString

def insertGenMapEntry (entries : List (GenMapEntry κ)) (key value : RuntimeValue κ) : List (Raw κ) :=
  let nextEntry := .object [("key", unwrapValue key), ("value", unwrapValue value)]
  let retainedEntries := entries.filter fun entry => !areEqual functionText (hydrateValue entry.key) key
  retainedEntries.map (·.entry) ++ [nextEntry]

def applyOrThrow (builtinFunction : BuiltinFunction) (applied argumentValues : List (RuntimeValue κ)) :
    Except HostError (RuntimeValue κ) :=
  let appliedArguments := applied ++ argumentValues
  let nonUnitArguments := appliedArguments.filter fun argument => !argument.isUnit
  let numericArguments := appliedArguments.filter isNumericCompatible
  let unsaturated := .ok (.builtin builtinFunction appliedArguments)
  let comparison (holds : Ordering → Bool) :=
    match nonUnitArguments with
    | left :: right :: _ => (compareValues left right).map fun ordering => .boolean (holds ordering)
    | _ => unsaturated
  match builtinFunction with
  | .equal =>
      match appliedArguments with
      | left :: right :: _ => .ok (.boolean (areEqual functionText left right))
      | _ => unsaturated
  | .less => comparison fun ordering => ordering = .lt
  | .lessEq => comparison fun ordering => ordering ≠ .gt
  | .greaterEq => comparison fun ordering => ordering ≠ .lt
  | .greater => comparison fun ordering => ordering = .gt
  | .greaterNamed => comparison fun ordering => ordering = .gt
  | .addInt64 =>
      match nonUnitArguments with
      | left :: right :: _ => do return .int64 (toString ((← readInt64 left) + (← readInt64 right)))
      | _ => unsaturated
  | .subInt64 =>
      match nonUnitArguments with
      | left :: right :: _ => do return .int64 (toString ((← readInt64 left) - (← readInt64 right)))
      | _ => unsaturated
  | .addNumeric =>
      match numericArguments.reverse with
      | right :: left :: _ => do
          let leftDecimal ← readExactDecimal left
          let rightDecimal ← readExactDecimal right
          return .numeric (formatExactDecimal (addExactDecimals leftDecimal rightDecimal))
      | _ => unsaturated
  | .subNumeric =>
      match numericArguments.reverse with
      | right :: left :: _ => do
          let leftDecimal ← readExactDecimal left
          let rightDecimal ← readExactDecimal right
          return .numeric (formatExactDecimal (subtractExactDecimals leftDecimal rightDecimal))
      | _ => unsaturated
  | .mulNumeric =>
      match numericArguments with
      | witness :: left :: right :: _ => do
          let mulNumericScale ← readNumericScaleWitnessOrThrow witness
          let leftDecimal ← readExactDecimal left
          let rightDecimal ← readExactDecimal right
          let product ← quantizeExactDecimal (multiplyExactDecimals leftDecimal rightDecimal) mulNumericScale .halfEven
          return .numeric (formatExactNumeric product mulNumericScale)
      | _ => unsaturated
  | .divNumeric =>
      match numericArguments with
      | witness :: left :: right :: _ => do
          let divNumericScale ← readNumericScaleWitnessOrThrow witness
          let leftDecimal ← readExactDecimal left
          let rightDecimal ← readExactDecimal right
          let quotient ← divideExactDecimals leftDecimal rightDecimal divNumericScale
          return .numeric (formatExactNumeric quotient divNumericScale)
      | _ => unsaturated
  | .int64ToNumeric =>
      match numericArguments with
      | witness :: operand :: _ => do
          let int64ToNumericScale ← readNumericScaleWitnessOrThrow witness
          let integer ← readInt64 operand
          let quantized ← quantizeExactDecimal ⟨integer, 0⟩ int64ToNumericScale .unnecessary
          return .numeric (formatExactNumeric quantized int64ToNumericScale)
      | _ => unsaturated
  | .numericToInt64 =>
      match numericArguments.getLast? with
      | some operand => do return .int64 (toString (truncateExactDecimalToInt64 (← readExactDecimal operand)))
      | none => unsaturated
  | .castNumeric =>
      match numericArguments with
      | witness :: operand :: _ => do
          let castNumericScale ← readNumericScaleWitnessOrThrow witness
          let decimal ← readExactDecimal operand
          let quantized ← quantizeExactDecimal decimal castNumericScale .unnecessary
          return .numeric (formatExactNumeric quantized castNumericScale)
      | _ => unsaturated
  | .shiftNumeric =>
      match numericArguments with
      | witness :: operand :: _ => do
          let shiftNumericScale ← readNumericScaleWitnessOrThrow witness
          let decimal ← readExactDecimal operand
          let shifted ← shiftExactDecimal decimal shiftNumericScale
          return .numeric (formatExactNumeric shifted shiftNumericScale)
      | _ => unsaturated
  | .roundNumeric =>
      match appliedArguments with
      | position :: operand :: _ => do
          let roundNumericScale ← readInt64 position
          let decimal ← readExactDecimal operand
          let rounded ← quantizeExactDecimal decimal roundNumericScale .halfEven
          return .numeric (formatExactDecimal rounded)
      | _ => unsaturated
  | .int64ToText =>
      match nonUnitArguments with
      | operand :: _ => do return .text (toString (← readInt64 operand))
      | [] => unsaturated
  | .partyToText =>
      match nonUnitArguments with
      | operand :: _ => do return .text (← readPartyLike operand)
      | [] => unsaturated
  | .coerceContractId =>
      match nonUnitArguments with
      | operand :: _ => do return .contractId (← readContractIdLike operand)
      | [] => unsaturated
  | .textmapEmpty => .ok (.ledgerValue (.object []) none)
  | .textmapInsert =>
      match appliedArguments with
      | key :: value :: map :: _ => do
          let textMap ← readTextMap map
          let name ← readText key
          return .ledgerValue (.object (assigned (textMap ++ [(name, unwrapValue value)]))) none
      | _ => unsaturated
  | .textmapLookup =>
      match appliedArguments with
      | key :: map :: _ => do
          let textMap ← readTextMap map
          let name ← readText key
          return hydrateValue (readProperty textMap name)
      | _ => unsaturated
  | .textmapDelete =>
      match appliedArguments with
      | key :: map :: _ => do
          let textMap ← readTextMap map
          let name ← readText key
          return .ledgerValue (.object (textMap.filter fun entry => entry.1 ≠ name)) none
      | _ => unsaturated
  | .textmapToList =>
      match appliedArguments with
      | map :: _ => do
          let textMap ← readTextMap map
          return .ledgerValue (.array (textMap.map fun entry => .object [("0", .string entry.1), ("1", entry.2)])) none
      | [] => unsaturated
  | .textmapSize =>
      match appliedArguments with
      | map :: _ => do return .int64 (toString (← readTextMap map).length)
      | [] => unsaturated
  | .genmapEmpty => .ok (.ledgerValue (.array []) none)
  | .genmapInsert =>
      match appliedArguments with
      | key :: value :: map :: _ => do
          return .ledgerValue (.array (insertGenMapEntry functionText (← readGenMap map) key value)) none
      | _ => unsaturated
  | .genmapLookup =>
      match appliedArguments with
      | key :: map :: _ => do
          let entries ← readGenMap map
          match entries.find? fun entry => areEqual functionText (hydrateValue entry.key) key with
          | some entry => return hydrateValue entry.value
          | none => return .unit
      | _ => unsaturated
  | .genmapDelete =>
      match appliedArguments with
      | key :: map :: _ => do
          let entries ← readGenMap map
          let retained := entries.filter fun entry => !areEqual functionText (hydrateValue entry.key) key
          return .ledgerValue (.array (retained.map (·.entry))) none
      | _ => unsaturated
  | .genmapKeys =>
      match appliedArguments with
      | map :: _ => do return .ledgerValue (.array ((← readGenMap map).map (·.key))) none
      | [] => unsaturated
  | .genmapValues =>
      match appliedArguments with
      | map :: _ => do return .ledgerValue (.array ((← readGenMap map).map (·.value))) none
      | [] => unsaturated
  | .genmapSize =>
      match appliedArguments with
      | map :: _ => do return .int64 (toString (← readGenMap map).length)
      | [] => unsaturated
  | .appendText =>
      match appliedArguments with
      | left :: right :: _ => do return .text ((← readText left) ++ (← readText right))
      | _ => unsaturated
  | .explodeText =>
      match nonUnitArguments.getLast? with
      | some operand => do
          return .ledgerValue (.array ((← readText operand).toList.map fun c => .string (String.singleton c))) none
      | none => unsaturated
  | .implodeText =>
      match nonUnitArguments.getLast? with
      | some operand => do return .text (String.join (← readTextList operand))
      | none => unsaturated
  | .numericToText =>
      match numericArguments.getLast? with
      | some operand => do return .text (← readTextLike operand)
      | none => unsaturated
  | .foldl => .error (.validation s!"daml lf builtin '{builtinFunction.text}' is not supported yet")
  | .foldr => .error (.validation s!"daml lf builtin '{builtinFunction.text}' is not supported yet")
  | .unsupported name => .error (.validation s!"daml lf builtin '{name}' is not supported yet")

/-- The functions that the interpreter does not run are refused by name, whatever they are applied to. -/
theorem applyOrThrow_refused {builtinFunction : BuiltinFunction} (applied argumentValues : List (RuntimeValue κ))
    (h : builtinFunction = .foldl ∨ builtinFunction = .foldr ∨ ∃ name, builtinFunction = .unsupported name) :
    applyOrThrow functionText builtinFunction applied argumentValues
      = .error (.validation s!"daml lf builtin '{builtinFunction.text}' is not supported yet") := by
  rcases h with rfl | rfl | ⟨name, rfl⟩
  · simp only [applyOrThrow]
  · simp only [applyOrThrow]
  · simp only [applyOrThrow, BuiltinFunction.text]

end Apply

end CantonSdk.DamlLf.Interpreter
