import CantonSdk.Base.HostValue
import CantonSdk.Query.Canonical.Value

/-!
# Values of the DAML-LF interpreter

Runtime values carry their kind, and some of them carry an untyped value of the host. What a function value
consists of is left open here: `κ` stands for it. The same types serve the built-in functions, which never look
into a function, and the evaluator, which applies them.
-/

set_option linter.all false

namespace CantonSdk.DamlLf.Interpreter

open CantonSdk.Base CantonSdk.Query.Canonical

def contractIdMarkerKey : String := "__damlLfContractId"

def numericMarkerKey : String := "__damlLfNumeric"

def partyMarkerKey : String := "__damlLfParty"

def recordIdMarkerKey : String := "__damlLfRecordId"

inductive BuiltinFunction
  | equal
  | less
  | lessEq
  | addInt64
  | subInt64
  | greaterEq
  | greater
  /-- `GREATER`, which is handled as `greater` is. -/
  | greaterNamed
  | addNumeric
  | subNumeric
  | mulNumeric
  | divNumeric
  | int64ToNumeric
  | numericToInt64
  | castNumeric
  | shiftNumeric
  | roundNumeric
  | int64ToText
  | partyToText
  | coerceContractId
  | textmapEmpty
  | textmapInsert
  | textmapLookup
  | textmapDelete
  | textmapToList
  | textmapSize
  | genmapEmpty
  | genmapInsert
  | genmapLookup
  | genmapDelete
  | genmapKeys
  | genmapValues
  | genmapSize
  | appendText
  | explodeText
  | implodeText
  | numericToText
  | foldl
  | foldr
  | unsupported (name : String)
  deriving DecidableEq

/-- The text of `builtinFunction`. -/
def BuiltinFunction.text : BuiltinFunction → String
  | .equal => "equal"
  | .less => "LESS"
  | .lessEq => "LESS_EQ"
  | .addInt64 => "ADD_INT64"
  | .subInt64 => "SUB_INT64"
  | .greaterEq => "GREATER_EQ"
  | .greater => "greater"
  | .greaterNamed => "GREATER"
  | .addNumeric => "ADD_NUMERIC"
  | .subNumeric => "SUB_NUMERIC"
  | .mulNumeric => "MUL_NUMERIC"
  | .divNumeric => "DIV_NUMERIC"
  | .int64ToNumeric => "INT64_TO_NUMERIC"
  | .numericToInt64 => "NUMERIC_TO_INT64"
  | .castNumeric => "CAST_NUMERIC"
  | .shiftNumeric => "SHIFT_NUMERIC"
  | .roundNumeric => "ROUND_NUMERIC"
  | .int64ToText => "INT64_TO_TEXT"
  | .partyToText => "PARTY_TO_TEXT"
  | .coerceContractId => "COERCE_CONTRACT_ID"
  | .textmapEmpty => "TEXTMAP_EMPTY"
  | .textmapInsert => "TEXTMAP_INSERT"
  | .textmapLookup => "TEXTMAP_LOOKUP"
  | .textmapDelete => "TEXTMAP_DELETE"
  | .textmapToList => "TEXTMAP_TO_LIST"
  | .textmapSize => "TEXTMAP_SIZE"
  | .genmapEmpty => "GENMAP_EMPTY"
  | .genmapInsert => "GENMAP_INSERT"
  | .genmapLookup => "GENMAP_LOOKUP"
  | .genmapDelete => "GENMAP_DELETE"
  | .genmapKeys => "GENMAP_KEYS"
  | .genmapValues => "GENMAP_VALUES"
  | .genmapSize => "GENMAP_SIZE"
  | .appendText => "appendText"
  | .explodeText => "EXPLODE_TEXT"
  | .implodeText => "IMPLODE_TEXT"
  | .numericToText => "NUMERIC_TO_TEXT"
  | .foldl => "FOLDL"
  | .foldr => "FOLDR"
  | .unsupported name => name

mutual

/-- `IDamlLfRuntimeValue`. -/
inductive RuntimeValue (κ : Type)
  | unit
  | boolean (value : Bool)
  | text (value : String)
  | numeric (value : String)
  | int64 (value : String)
  | party (value : String)
  | contractId (value : String)
  /-- The kind `contractId[]`. -/
  | contractIds (value : List String)
  | ledgerValue (value : Raw κ) (contractId : Option String)
  | record (fields : List (String × RuntimeValue κ))
  | builtin (builtinFunction : BuiltinFunction) (appliedArguments : List (RuntimeValue κ))
  | closure (function : κ)

/-- A value of the host: what runtime values wrap, and what maps hold. -/
inductive Raw (κ : Type)
  | undefined
  | null
  | boolean (value : Bool)
  | number (value : Int)
  | string (value : String)
  | array (items : List (Raw κ))
  | object (properties : List (String × Raw κ))
  /-- What an object has under a name that it does not define itself. -/
  | inherited (name : String)
  | runtime (value : RuntimeValue κ)

end

variable {κ : Type}

def RuntimeValue.kind : RuntimeValue κ → String
  | .unit => "unit"
  | .boolean _ => "boolean"
  | .text _ => "text"
  | .numeric _ => "numeric"
  | .int64 _ => "int64"
  | .party _ => "party"
  | .contractId _ => "contractId"
  | .contractIds _ => "contractId[]"
  | .ledgerValue _ _ => "ledgerValue"
  | .record _ => "record"
  | .builtin _ _ => "builtin"
  | .closure _ => "closure"

def RuntimeValue.isUnit : RuntimeValue κ → Bool
  | .unit => true
  | _ => false

/-- The names that every object inherits. -/
def inheritedNames : List String :=
  ["constructor", "__defineGetter__", "__defineSetter__", "hasOwnProperty", "__lookupGetter__",
    "__lookupSetter__", "isPrototypeOf", "propertyIsEnumerable", "toString", "valueOf", "__proto__",
    "toLocaleString"]

/-- `object[name]`, of an object with these properties of its own. -/
def readProperty (properties : List (String × Raw κ)) (name : String) : Raw κ :=
  match properties.lookup name with
  | some value => value
  | none => if inheritedNames.contains name then .inherited name else .undefined

/-! ### JSON text -/

section Json

-- how the host writes a function value, with the frame that it belongs to
variable (functionText : κ → String)

mutual

/-- `JSON.stringify`; there is none where a property would be left out. -/
def Raw.stringify : Raw κ → Option String
  | .undefined => none
  | .null => some "null"
  | .boolean value => some (toString value)
  | .number value => some (toString value)
  | .string value => some (jsonString value)
  | .array items => some ("[" ++ ",".intercalate (stringifyItems items) ++ "]")
  | .object properties => some (jsonObject (stringifyProperties properties))
  | .inherited name => if name = "__proto__" then some "\x7b\x7d" else none
  | .runtime value => some value.stringify

def stringifyItems : List (Raw κ) → List String
  | [] => []
  | item :: items => (Raw.stringify item).getD "null" :: stringifyItems items

def stringifyProperties : List (String × Raw κ) → List (String × String)
  | [] => []
  | (name, value) :: properties =>
      match Raw.stringify value with
      | some text => (name, text) :: stringifyProperties properties
      | none => stringifyProperties properties

def RuntimeValue.stringify : RuntimeValue κ → String
  | .unit => jsonObject [("kind", jsonString "unit")]
  | .boolean value => jsonObject [("kind", jsonString "boolean"), ("value", toString value)]
  | .text value => jsonObject [("kind", jsonString "text"), ("value", jsonString value)]
  | .numeric value => jsonObject [("kind", jsonString "numeric"), ("value", jsonString value)]
  | .int64 value => jsonObject [("kind", jsonString "int64"), ("value", jsonString value)]
  | .party value => jsonObject [("kind", jsonString "party"), ("value", jsonString value)]
  | .contractId value => jsonObject [("kind", jsonString "contractId"), ("value", jsonString value)]
  | .contractIds value =>
      jsonObject [("kind", jsonString "contractId[]"), ("value", "[" ++ ",".intercalate (value.map jsonString) ++ "]")]
  | .ledgerValue value contractId =>
      jsonObject ([("kind", jsonString "ledgerValue")] ++ (Raw.stringify value).toList.map (("value", ·))
        ++ contractId.toList.map fun contractId => ("contractId", jsonString contractId))
  | .record fields =>
      jsonObject [("kind", jsonString "record"), ("fields", jsonObject (stringifyFields fields))]
  | .builtin builtinFunction appliedArguments =>
      jsonObject [("kind", jsonString "builtin"), ("builtinFunction", jsonString builtinFunction.text),
        ("appliedArguments", "[" ++ ",".intercalate (stringifyArguments appliedArguments) ++ "]")]
  | .closure function => functionText function

def stringifyFields : List (String × RuntimeValue κ) → List (String × String)
  | [] => []
  | (name, value) :: fields => (name, value.stringify) :: stringifyFields fields

def stringifyArguments : List (RuntimeValue κ) → List String
  | [] => []
  | value :: values => value.stringify :: stringifyArguments values

end

end Json

end CantonSdk.DamlLf.Interpreter
