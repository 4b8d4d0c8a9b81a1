import CantonSdk.Base.Checked
import CantonSdk.Base.Decimal
import CantonSdk.Query.Canonical.Value

/-!
# Mapping ledger values

`mapGrpcQueryValue` takes a verbose Ledger API value to the JSON convention of the query rows, and
refuses what the Ledger API could not have sent: unlabeled fields, repeated keys, text outside its
grammar, numbers outside their range and nesting that is too deep.
-/

set_option linter.all false

namespace CantonSdk.Query.Grpc

open CantonSdk.Base CantonSdk.Query.Canonical

/-- The `sum` of a generated `Value`; `unset` is a sum without a case. -/
inductive Value where
  | unit
  | bool (value : Bool)
  | int64 (value : String)
  | date (epochDay : Int)
  | timestamp (micros : String)
  | numeric (value : String)
  | party (value : String)
  | text (value : String)
  | contractId (value : String)
  | optional (value : Option Value)
  | list (elements : List Value)
  | textMap (entries : List (String × Option Value))
  | genMap (entries : List (Option Value × Option Value))
  | record (fields : List (String × Option Value))
  | variant (constructorName : String) (value : Option Value)
  | enum (constructorName : String)
  | unset

/-! ### Text of the Ledger API -/

def isNameStart (c : Char) : Bool := c.isAlpha || c = '$' || c = '_'

def isNameChar (c : Char) : Bool := c.isAlphanum || c = '$' || c = '_'

def isPartyChar (c : Char) : Bool := c.isAlphanum || c = ':' || c = '-' || c = '_' || c = ' '

def isLedgerChar (c : Char) : Bool := isPartyChar c || c = '#' || c = '/'

def isPackageIdChar (c : Char) : Bool := c.isAlphanum || c = '-' || c = '_' || c = ' '

def invalid (name : String) : QueryError := .validation ("gRPC query " ++ name ++ " is invalid")

def validPartyId (value : String) : Checked String :=
  if inClass isPartyChar 1 255 value then .ok value else .error (invalid "party")

def validLedgerString (value name : String) : Checked String :=
  if inClass isLedgerChar 1 255 value then .ok value else .error (invalid name)

def isNameString (value : List Char) : Bool :=
  match value with
  | [] => false
  | first :: rest => isNameStart first && decide (rest.length ≤ 999) && rest.all isNameChar

def validNameString (value name : String) : Checked String :=
  if isNameString value.toList then .ok value else .error (invalid name)

/-- `value.split(".")`, on characters. -/
def splitDots : List Char → List (List Char)
  | [] => [[]]
  | c :: rest =>
      if c = '.' then [] :: splitDots rest
      else
        match splitDots rest with
        | [] => [[c]]
        | segment :: segments => (c :: segment) :: segments

def validDottedNameString (value name : String) : Checked String :=
  if (splitDots value.toList).all isNameString then .ok value else .error (invalid name)

def validPackageIdString (value name : String) : Checked String :=
  if inClass isPackageIdChar 1 64 value then .ok value else .error (invalid name)

/-! ### Scalars -/

/-- The pattern `^-?(?:0|[1-9]\d*)$`, and the value of the text. -/
def signedDecimal (value : String) : Option Int :=
  match value.toList with
  | '-' :: digits => if canonicalDigits digits then some (-(Nat.ofDigitChars 10 digits 0 : Int)) else none
  | digits => if canonicalDigits digits then some (Nat.ofDigitChars 10 digits 0 : Int) else none

def int64 (value name : String) : Checked String :=
  match signedDecimal value with
  | none => .error (.validation ("gRPC query " ++ name ++ " is not an integer"))
  | some n =>
      if n < -9223372036854775808 ∨ n > 9223372036854775807 then
        .error (.validation ("gRPC query " ++ name ++ " is outside the int64 range"))
      else .ok value

/-- The text of a timestamp in microseconds; its fraction has zero, three or six digits. -/
def timestampText (micros : Int) : String :=
  let seconds := micros / 1000000
  let fraction := (micros % 1000000).toNat
  let subSecond :=
    if fraction = 0 then ""
    else if fraction % 1000 = 0 then "." ++ zeroPadded 3 (fraction / 1000)
    else "." ++ zeroPadded 6 fraction
  isoSecond seconds ++ subSecond ++ "Z"

def mapTimestamp (value : String) : Checked String := do
  let value ← int64 value "timestamp"
  match signedDecimal value with
  | none => .error (.validation "gRPC query timestamp is not an integer")
  | some micros =>
      if micros < -62135596800000000 ∨ micros > 253402300799999999 then
        .error (.validation "gRPC query timestamp is outside the Ledger API range")
      else .ok (timestampText micros)

def mapDate (epochDay : Int) : Checked String :=
  if epochDay < -719162 ∨ epochDay > 2932896 then
    .error (.validation "gRPC query date is outside the Ledger API range")
  else .ok (isoDay epochDay)

/-- `value.replace(/^[+-]/, "")`, on characters. -/
def dropSign : List Char → List Char
  | '-' :: rest => rest
  | '+' :: rest => rest
  | digits => digits

/-- What stands before and after the first point. -/
def splitPoint (value : List Char) : List Char × Option (List Char) :=
  match value.span (· ≠ '.') with
  | (whole, []) => (whole, none)
  | (whole, _ :: fraction) => (whole, some fraction)

def mapNumeric (value : String) : Checked String :=
  let (whole, fraction) := splitPoint (dropSign value.toList)
  let fractional := fraction.getD []
  if whole = [] ∨ whole.length > 38 ∨ fractional.length > 37 ∨ ¬ (whole ++ fractional).all Char.isDigit then
    .error (invalid "numeric")
  else if ((whole ++ fractional).dropWhile (· = '0')).length > 38 then
    .error (.validation "gRPC query numeric exceeds DAML Numeric precision")
  else .ok value

/-- A numeric without leading zeros, trailing zeros or a negative zero. -/
def canonicalNumeric (value : String) : String :=
  let (whole, fraction) := splitPoint (dropSign value.toList)
  let stripped := whole.dropWhile (· = '0')
  let normalizedWhole := if stripped = [] then ['0'] else stripped
  let normalizedFraction := ((fraction.getD []).reverse.dropWhile (· = '0')).reverse
  if normalizedWhole = ['0'] ∧ normalizedFraction = [] then "0"
  else
    (if value.toList.head? = some '-' then "-" else "") ++ String.ofList normalizedWhole
      ++ (if normalizedFraction = [] then "" else "." ++ String.ofList normalizedFraction)

/-! ### Values -/

def maxGrpcQueryValueDepth : Nat := 256

section Mapping

variable (locale : Collation)

/-- A part that `mapValue` has already found present. -/
def presentText (text : Option (Checked String)) : Checked String :=
  text.getD (.error (.validation "gRPC query gen-map key cannot be represented as ledger JSON"))

/-- `sort((left, right) => left.key.localeCompare(right.key))` and the text of each entry. -/
def canonicalFields (fields : List (String × String)) : String :=
  ",".intercalate ((sortBy (compareKey locale.localeCompare Prod.fst) fields).map fun field =>
    jsonString field.1 ++ ":" ++ field.2)

mutual

/-- The text by which `mapGenMap` tells keys apart. -/
def canonicalLedgerKey : Value → Checked String
  | .unit => .ok "unit"
  | .bool value => .ok ("bool:" ++ toString value)
  | .int64 value => .ok ("int64:" ++ jsonString value)
  | .date epochDay => .ok ("date:" ++ toString epochDay)
  | .timestamp micros => .ok ("timestamp:" ++ jsonString micros)
  | .numeric value => .ok ("numeric:" ++ canonicalNumeric value)
  | .party value => .ok ("party:" ++ jsonString value)
  | .text value => .ok ("text:" ++ jsonString value)
  | .contractId value => .ok ("contractId:" ++ jsonString value)
  | .optional value =>
      match canonicalPart value with
      | none => .ok "optional:none"
      | some inner => do return "optional:some(" ++ (← inner) ++ ")"
  | .list elements => do return "list:[" ++ ",".intercalate (← canonicalItems elements) ++ "]"
  | .textMap entries => do
      return "textMap:\x7b" ++ canonicalFields locale (← canonicalEntries entries) ++ "\x7d"
  | .genMap entries => do
      return "genMap:\x7b" ++ ",".intercalate (sortBy compareText (← canonicalPairs entries)) ++ "\x7d"
  | .record fields => do
      return "record:\x7b" ++ canonicalFields locale (← canonicalEntries fields) ++ "\x7d"
  | .variant constructorName value => do
      return "variant:" ++ jsonString constructorName ++ ":" ++ (← presentText (canonicalPart value))
  | .enum constructorName => .ok ("enum:" ++ jsonString constructorName)
  | .unset => presentText none

def canonicalPart : Option Value → Option (Checked String)
  | none => none
  | some value => some (canonicalLedgerKey value)

def canonicalItems : List Value → Checked (List String)
  | [] => .ok []
  | value :: rest => do return (← canonicalLedgerKey value) :: (← canonicalItems rest)

def canonicalEntries : List (String × Option Value) → Checked (List (String × String))
  | [] => .ok []
  | (key, value) :: rest => do
      return (key, ← presentText (canonicalPart value)) :: (← canonicalEntries rest)

def canonicalPairs : List (Option Value × Option Value) → Checked (List String)
  | [] => .ok []
  | (key, value) :: rest => do
      let keyText ← presentText (canonicalPart key)
      let valueText ← presentText (canonicalPart value)
      return (keyText ++ ":" ++ valueText) :: (← canonicalPairs rest)

end

/-- The guard at the head of `mapValue`. -/
def withinDepth (depth : Nat) (mapped : Checked QueryValue) : Checked QueryValue :=
  if depth > maxGrpcQueryValueDepth then
    .error (.validation "gRPC query value exceeds maximum nesting depth 256")
  else mapped

mutual

def mapValue (depth : Nat) : Value → Checked QueryValue
  | .unit => withinDepth depth (.ok (.object []))
  | .bool value => withinDepth depth (.ok (.bool value))
  | .int64 value => withinDepth depth (.text <$> int64 value "int64")
  | .date epochDay => withinDepth depth (.text <$> mapDate epochDay)
  | .timestamp micros => withinDepth depth (.text <$> mapTimestamp micros)
  | .numeric value => withinDepth depth (.text <$> mapNumeric value)
  | .party value => withinDepth depth (.text <$> validPartyId value)
  | .text value => withinDepth depth (.ok (.text value))
  | .contractId value => withinDepth depth (.text <$> validLedgerString value "contract id")
  | .optional value => withinDepth depth ((mapPart (depth + 1) value).getD (.ok .null))
  | .list elements => withinDepth depth (.array <$> mapItems (depth + 1) elements)
  | .textMap entries => withinDepth depth (.object <$> mapTextMap (depth + 1) 0 [] entries)
  | .genMap entries => withinDepth depth (.array <$> mapGenMap (depth + 1) 0 [] entries)
  | .record fields => withinDepth depth (.object <$> mapRecord (depth + 1) 0 [] fields)
  | .variant constructorName value => withinDepth depth (
      match mapPart (depth + 1) value with
      | none => .error (.validation "gRPC query variant is incomplete")
      | some inner => do
          let tag ← validNameString constructorName "variant constructor"
          return .object [("tag", .text tag), ("value", ← inner)])
  | .enum constructorName =>
      withinDepth depth (.text <$> validNameString constructorName "enum constructor")
  | .unset => withinDepth depth (.error (.validation "gRPC query value has no active sum"))

def mapPart (depth : Nat) : Option Value → Option (Checked QueryValue)
  | none => none
  | some value => some (mapValue depth value)

def mapItems (depth : Nat) : List Value → Checked (List QueryValue)
  | [] => .ok []
  | value :: rest => do return (← mapValue depth value) :: (← mapItems depth rest)

/-- The loop over the fields of a record, with the fields defined so far. -/
def mapRecord (depth index : Nat) (output : List (String × QueryValue)) :
    List (String × Option Value) → Checked (List (String × QueryValue))
  | [] => .ok output
  | (label, value) :: rest =>
      if label.isEmpty then
        .error (.validation s!"gRPC query record field {index} is unlabeled; verbose values are required")
      else if output.any fun field => field.1 = label then
        .error (.validation s!"gRPC query record has duplicate label {label}")
      else
        match mapPart depth value with
        | none => .error (.validation s!"gRPC query record field {label} has no value")
        | some mapped => do
            let label ← validNameString label s!"record field {index} label"
            let mapped ← mapped
            mapRecord depth (index + 1) (output ++ [(label, mapped)]) rest

/-- The loop over the entries of a text map. -/
def mapTextMap (depth index : Nat) (output : List (String × QueryValue)) :
    List (String × Option Value) → Checked (List (String × QueryValue))
  | [] => .ok output
  | (key, value) :: rest =>
      if output.any fun field => field.1 = key then
        .error (.validation s!"gRPC query text-map has duplicate key {key}")
      else
        match mapPart depth value with
        | none => .error (.validation s!"gRPC query text-map entry {index} has no value")
        | some mapped => do mapTextMap depth (index + 1) (output ++ [(key, ← mapped)]) rest

/-- The loop over the entries of a general map, with the keys seen so far. -/
def mapGenMap (depth index : Nat) (seenKeys : List String) :
    List (Option Value × Option Value) → Checked (List QueryValue)
  | [] => .ok []
  | (key, value) :: rest =>
      match mapPart depth key, mapPart depth value, canonicalPart locale key with
      | some mappedKey, some mappedValue, some canonicalKey => do
          let mappedKey ← mappedKey
          let canonicalKey ← canonicalKey
          if canonicalKey ∈ seenKeys then
            .error (.validation s!"gRPC query gen-map has duplicate key at entry {index}")
          else
            let mappedValue ← mappedValue
            return .array [mappedKey, mappedValue]
              :: (← mapGenMap depth (index + 1) (seenKeys ++ [canonicalKey]) rest)
      | _, _, _ => .error (.validation s!"gRPC query gen-map entry {index} is incomplete")

end

def mapGrpcQueryValue (value : Value) : Checked QueryValue := mapValue locale 0 value

end Mapping

end CantonSdk.Query.Grpc
