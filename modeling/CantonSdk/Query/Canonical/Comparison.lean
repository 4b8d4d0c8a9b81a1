import CantonSdk.Base.Decimal
import CantonSdk.Base.Sorting
import CantonSdk.Query.Canonical.Ast

/-!
# Comparing values

The comparisons of the in-memory evaluator: equality by JSON text, an order in which texts of digits
compare as numbers, and LIKE patterns as regular expressions.
-/

set_option linter.all false

namespace CantonSdk.Query.Canonical

open CantonSdk.Base

/-- What JavaScript leaves to its runtime. -/
structure JsRuntime where
  /-- `new Date(text).getTime()`; none is NaN. -/
  parseDate : String → Option Int
  /-- `String(date)`, in the time zone of the process. -/
  dateText : Int → String
  /-- The case folding of a regular expression with the flags `iu`. -/
  foldCase : Char → Char

/-- A runtime that reads no dates and folds no case. -/
def plainRuntime : JsRuntime where
  parseDate _ := none
  dateText _ := ""
  foldCase c := c

/-! ### Texts as integers -/

def decimalInt (digits : List Char) : Int := (Nat.ofDigitChars 10 digits 0 : Int)

/-- `BigInt` of a text that matches `/^-?\d+$/`. -/
def integerText (text : String) : Option Int :=
  match text.toList with
  | '-' :: digits =>
      if !digits.isEmpty && digits.all Char.isDigit then some (-decimalInt digits) else none
  | digits => if !digits.isEmpty && digits.all Char.isDigit then some (decimalInt digits) else none

/-- White space and line ends of the language. -/
def isJsSpace (c : Char) : Bool :=
  c.toNat ∈ [9, 10, 11, 12, 13, 32, 160, 0x1680, 0x2028, 0x2029, 0x202F, 0x205F, 0x3000, 0xFEFF]
    || decide (0x2000 ≤ c.toNat ∧ c.toNat ≤ 0x200A)

def trimJs (text : List Char) : List Char :=
  ((text.dropWhile isJsSpace).reverse.dropWhile isJsSpace).reverse

/-- The digits of a text in this base, if it has any and nothing else. -/
def digitsInBase (base : Nat) (digits : List Char) : Option Int :=
  let digit (c : Char) : Option Nat :=
    let value :=
      if c.isDigit then c.toNat - '0'.toNat
      else if c.isLower then c.toNat - 'a'.toNat + 10
      else if c.isUpper then c.toNat - 'A'.toNat + 10
      else base
    if value < base then some value else none
  if digits.isEmpty then none
  else (digits.mapM digit).map fun values =>
    (values.foldl (fun value digit => base * value + digit) 0 : Nat)

/-- `BigInt(text)`, and what a text is when it is compared with a bigint; none is not an integer. -/
def stringToBigInt (text : String) : Option Int :=
  match trimJs text.toList with
  | [] => some 0
  | '0' :: 'x' :: digits | '0' :: 'X' :: digits => digitsInBase 16 digits
  | '0' :: 'o' :: digits | '0' :: 'O' :: digits => digitsInBase 8 digits
  | '0' :: 'b' :: digits | '0' :: 'B' :: digits => digitsInBase 2 digits
  | '-' :: digits => (digitsInBase 10 digits).map Neg.neg
  | '+' :: digits => digitsInBase 10 digits
  | digits => digitsInBase 10 digits

section Runtime

variable (runtime : JsRuntime)

/-! ### Text of a value -/

mutual

/-- `String(value)`. -/
def jsString : QueryValue → String
  | .null => "null"
  | .bool value => toString value
  | .number value => toString value
  | .text value => value
  | .date milliseconds => runtime.dateText milliseconds
  | .invalidDate => "Invalid Date"
  | .bytes value => ",".intercalate (value.map fun byte => toString byte.toNat)
  | .array items => ",".intercalate (jsStringItems items)
  | .object _ => "[object Object]"

/-- The entries of `Array.prototype.join`: null is empty. -/
def jsStringItems : List QueryValue → List String
  | [] => []
  | .null :: rest => "" :: jsStringItems rest
  | item :: rest => jsString item :: jsStringItems rest

end

/-! ### Equality -/

/-- `Array.from(value)`. -/
def arrayFrom : QueryValue → QueryValue
  | .bytes value => .array (value.map fun byte => .number byte.toNat)
  | .array items => .array items
  | .text value => .array (value.toList.map fun c => .text (String.singleton c))
  | _ => .array []

def isBytes : QueryValue → Bool
  | .bytes _ => true
  | _ => false

/-- `equal`. -/
def equal (left right : QueryValue) : Bool :=
  match left, right with
  | .date left, .date right => toISOString left = toISOString right
  | .date left, right => toISOString left = jsString runtime right
  | left, .date right => jsString runtime left = toISOString right
  | left, right =>
      if isBytes left || isBytes right then stringify (arrayFrom left) = stringify (arrayFrom right)
      else stringify left = stringify right

/-! ### Order -/

/-- `numeric`. -/
def numeric : QueryValue → Option Int
  | .text value => integerText value
  | .number value => some value
  | _ => none

/-- `new Date(String(value)).getTime()`, and the time of a date itself. -/
def timeOf : QueryValue → Option Int
  | .date milliseconds => some milliseconds
  | .invalidDate => none
  | value => runtime.parseDate (jsString runtime value)

def isDate : QueryValue → Bool
  | .date _ | .invalidDate => true
  | _ => false

/-- A bigint beside a text: a text that is no integer is neither less nor greater. -/
def compareMixed (left : Int) (right : String) : Ordering :=
  (stringToBigInt right).elim .eq (compare left)

/-- `compare`; none is NaN. -/
def compareValues (left right : Option QueryValue) : Option Ordering :=
  match left, right with
  | none, _ | _, none | some .null, _ | _, some .null => none
  | some left, some right =>
      if isDate left || isDate right then
        match timeOf runtime left, timeOf runtime right with
        | some leftTime, some rightTime => some (compare leftTime rightTime)
        | _, _ => none
      else
        match numeric left, numeric right with
        | some leftValue, some rightValue => some (compare leftValue rightValue)
        | some leftValue, none => some (compareMixed leftValue (jsString runtime right))
        | none, some rightValue => some (compareMixed rightValue (jsString runtime left)).swap
        | none, none => some (compareText (jsString runtime left) (jsString runtime right))

/-- A value that is neither null nor undefined. -/
def present (value : Option QueryValue) : Bool :=
  match value with
  | none | some .null => false
  | _ => true

/-- The part of `postgresCompare` that looks at nulls: last when ascending, first when descending. -/
def compareNulls (left right : Option QueryValue) (direction : QueryOrderDirection) : Option Ordering :=
  match present left, present right with
  | true, true => none
  | false, false => some .eq
  | false, true => some (if direction = .asc then .gt else .lt)
  | true, false => some (if direction = .asc then .lt else .gt)

/-- `postgresCompare`; none is NaN. -/
def postgresCompare (left right : Option QueryValue) (direction : QueryOrderDirection) :
    Option Ordering :=
  match compareNulls left right direction with
  | some ordering => some ordering
  | none =>
      (compareValues runtime left right).map fun ordering =>
        if direction = .asc then ordering else ordering.swap

/-! ### Patterns -/

inductive LikeToken where
  /-- `%`. -/
  | anyText
  /-- `_`. -/
  | anyChar
  | literal (c : Char)
  deriving DecidableEq

/-- The loop of `sqlLike` over its pattern. A backslash at the end stands for itself. -/
def likeTokens : List Char → List LikeToken
  | [] => []
  | '\\' :: c :: rest => .literal c :: likeTokens rest
  | '%' :: rest => .anyText :: likeTokens rest
  | '_' :: rest => .anyChar :: likeTokens rest
  | c :: rest => .literal c :: likeTokens rest

/-- Whether the tokens match the whole text. -/
def likeMatches (same : Char → Char → Bool) : List LikeToken → List Char → Bool
  | [], text => text.isEmpty
  | .anyChar :: tokens, text =>
      match text with
      | [] => false
      | _ :: rest => likeMatches same tokens rest
  | .literal c :: tokens, text =>
      match text with
      | [] => false
      | d :: rest => same c d && likeMatches same tokens rest
  | .anyText :: tokens, text => text.tails.any (likeMatches same tokens)

/-- `sqlLike`. -/
def sqlLike (value pattern : String) (insensitive : Bool) : Bool :=
  let same (c d : Char) : Bool :=
    if insensitive then runtime.foldCase c = runtime.foldCase d else c = d
  likeMatches same (likeTokens pattern.toList) value.toList

/-! ### Scalar predicates -/

/-- The scalar case of `matches`. -/
def matchesScalar (actual : Option QueryValue) (operator : ScalarOperator) (expected : QueryValue) :
    Bool :=
  match operator with
  | .equals =>
      match actual with
      | some actual =>
          decide (actual ≠ .null) && decide (expected ≠ .null) && equal runtime actual expected
      | none => false
  | .in_ =>
      match actual, expected with
      | some actual, .array candidates =>
          decide (actual ≠ .null) && candidates.any fun candidate =>
            decide (candidate ≠ .null) && equal runtime actual candidate
      | _, _ => false
  | .is => !present actual
  | .isNot => present actual
  | .lt => compareValues runtime actual (some expected) = some .lt
  | .lte => (compareValues runtime actual (some expected)).any Ordering.isLE
  | .gt => compareValues runtime actual (some expected) = some .gt
  | .gte => (compareValues runtime actual (some expected)).any Ordering.isGE
  | .like =>
      match actual, expected with
      | some (.text actual), .text expected => sqlLike runtime actual expected false
      | _, _ => false
  | .ilike =>
      match actual, expected with
      | some (.text actual), .text expected => sqlLike runtime actual expected true
      | _, _ => false
  | .has =>
      match actual with
      | some (.array entries) => entries.any fun entry => equal runtime entry expected
      | _ => false

/-! ### Projections -/

/-- `project`. -/
def project (value : Option QueryValue) (as : JsonScalarType) : QueryValue :=
  match value with
  | none | some .null => .null
  | some value =>
      match as with
      | .boolean => .bool (decide (value = .bool true ∨ value = .text "true"))
      | .timestamp =>
          if isDate value then value
          else (runtime.parseDate (jsString runtime value)).elim .invalidDate .date
      | .text | .numeric => .text (jsString runtime value)

def millisecondsPerDay : Int := 86400000

/-- The first instant of the bucket that a time is in. -/
def bucketTime (milliseconds : Int) : TimeBucket → Int
  | .hour => milliseconds - milliseconds % 3600000
  | .day => milliseconds - milliseconds % millisecondsPerDay
  | .month =>
      let epochDay := milliseconds / millisecondsPerDay
      (epochDay - (civilDate epochDay).day + 1) * millisecondsPerDay
  | .week =>
      -- 1970-01-01 was a Thursday: three days after Monday.
      let epochDay := milliseconds / millisecondsPerDay
      (epochDay - (epochDay + 3) % 7) * millisecondsPerDay

/-- `bucket`. -/
def bucket (value : Option QueryValue) (unit : TimeBucket) : QueryValue :=
  match value with
  | none | some .null => .null
  | some value => (timeOf runtime value).elim .null fun time => .date (bucketTime time unit)

end Runtime

example : bucketTime 951782400123 .week = 951696000000 := by decide

end CantonSdk.Query.Canonical
