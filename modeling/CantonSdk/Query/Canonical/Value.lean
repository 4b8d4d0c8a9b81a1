import CantonSdk.Base.Calendar

/-!
# Query values

What a canonical row may hold: the values that survive `immutableQueryValue`. A missing property is an
absent field, and the fields of an object stand in the order in which they were defined.
-/

set_option linter.all false

namespace CantonSdk.Query.Canonical

open CantonSdk.Base

/-- What the query code throws. -/
inductive QueryError where
  /-- `ValidationError`. -/
  | validation (message : String)
  /-- `RangeError`. -/
  | range (message : String)
  /-- `Error`. -/
  | plain (message : String)
  /-- `IncompleteQueryEdgeError`. -/
  | incompleteEdge (relation edge : String)
  deriving DecidableEq

abbrev Checked (α : Type) := Except QueryError α

inductive QueryValue where
  | null
  | bool (value : Bool)
  | number (value : Int)
  | text (value : String)
  /-- A date, by its milliseconds since 1970. -/
  | date (milliseconds : Int)
  /-- A date without a time. -/
  | invalidDate
  | bytes (value : List UInt8)
  | array (items : List QueryValue)
  | object (fields : List (String × QueryValue))

namespace QueryValue

mutual

def decEq : (left right : QueryValue) → Decidable (left = right)
  | null, null => isTrue rfl
  | invalidDate, invalidDate => isTrue rfl
  | bool a, bool b => decidable_of_iff (a = b) (by simp)
  | number a, number b => decidable_of_iff (a = b) (by simp)
  | text a, text b => decidable_of_iff (a = b) (by simp)
  | date a, date b => decidable_of_iff (a = b) (by simp)
  | bytes a, bytes b => decidable_of_iff (a = b) (by simp)
  | array a, array b => @decidable_of_iff _ (a = b) (by simp) (decEqItems a b)
  | object a, object b => @decidable_of_iff _ (a = b) (by simp) (decEqFields a b)
  | null, bool _ | null, number _ | null, text _ | null, date _ | null, invalidDate | null, bytes _
  | null, array _ | null, object _ | bool _, null | bool _, number _ | bool _, text _
  | bool _, date _ | bool _, invalidDate | bool _, bytes _ | bool _, array _ | bool _, object _
  | number _, null | number _, bool _ | number _, text _ | number _, date _ | number _, invalidDate
  | number _, bytes _ | number _, array _ | number _, object _ | text _, null | text _, bool _
  | text _, number _ | text _, date _ | text _, invalidDate | text _, bytes _ | text _, array _
  | text _, object _ | date _, null | date _, bool _ | date _, number _ | date _, text _
  | date _, invalidDate | date _, bytes _ | date _, array _ | date _, object _ | invalidDate, null
  | invalidDate, bool _ | invalidDate, number _ | invalidDate, text _ | invalidDate, date _
  | invalidDate, bytes _ | invalidDate, array _ | invalidDate, object _ | bytes _, null
  | bytes _, bool _ | bytes _, number _ | bytes _, text _ | bytes _, date _ | bytes _, invalidDate
  | bytes _, array _ | bytes _, object _ | array _, null | array _, bool _ | array _, number _
  | array _, text _ | array _, date _ | array _, invalidDate | array _, bytes _ | array _, object _
  | object _, null | object _, bool _ | object _, number _ | object _, text _ | object _, date _
  | object _, invalidDate | object _, bytes _ | object _, array _ => isFalse (by simp)

def decEqItems : (left right : List QueryValue) → Decidable (left = right)
  | [], [] => isTrue rfl
  | [], _ :: _ => isFalse (by simp)
  | _ :: _, [] => isFalse (by simp)
  | a :: as, b :: bs =>
      match decEq a b, decEqItems as bs with
      | isTrue h, isTrue hs => isTrue (by rw [h, hs])
      | isFalse h, _ => isFalse fun heq => h (List.cons.inj heq).1
      | _, isFalse hs => isFalse fun heq => hs (List.cons.inj heq).2

def decEqFields : (left right : List (String × QueryValue)) → Decidable (left = right)
  | [], [] => isTrue rfl
  | [], _ :: _ => isFalse (by simp)
  | _ :: _, [] => isFalse (by simp)
  | (j, a) :: as, (k, b) :: bs =>
      match decEq a b, decEqFields as bs, decEqText j k with
      | isTrue h, isTrue hs, isTrue hk => isTrue (by rw [h, hs, hk])
      | isFalse h, _, _ => isFalse fun heq => h (Prod.mk.inj (List.cons.inj heq).1).2
      | _, isFalse hs, _ => isFalse fun heq => hs (List.cons.inj heq).2
      | _, _, isFalse hk => isFalse fun heq => hk (Prod.mk.inj (List.cons.inj heq).1).1
where
  decEqText (j k : String) : Decidable (j = k) := inferInstance

end

instance : DecidableEq QueryValue := decEq

end QueryValue

/-! ### JSON text -/

/-- How `JSON.stringify` writes one character of a string. -/
def jsonChar (c : Char) : List Char :=
  if c = '"' then ['\\', '"']
  else if c = '\\' then ['\\', '\\']
  else if c.toNat = 8 then ['\\', 'b']
  else if c.toNat = 9 then ['\\', 't']
  else if c.toNat = 10 then ['\\', 'n']
  else if c.toNat = 12 then ['\\', 'f']
  else if c.toNat = 13 then ['\\', 'r']
  else if c.toNat < 32 then ['\\', 'u'] ++ padStart 4 '0' (Nat.toDigits 16 c.toNat)
  else [c]

def jsonString (text : String) : String :=
  "\"" ++ String.ofList (text.toList.flatMap jsonChar) ++ "\""

def jsonObject (fields : List (String × String)) : String :=
  "\x7b" ++ ",".intercalate (fields.map fun field => jsonString field.1 ++ ":" ++ field.2) ++ "\x7d"

mutual

/-- `JSON.stringify(value)`. -/
def stringify : QueryValue → String
  | .null => "null"
  | .bool value => toString value
  | .number value => toString value
  | .text value => jsonString value
  | .date milliseconds => jsonString (toISOString milliseconds)
  | .invalidDate => "null"
  | .bytes value => jsonObject (value.mapIdx fun index byte => (toString index, toString byte.toNat))
  | .array items => "[" ++ ",".intercalate (stringifyItems items) ++ "]"
  | .object fields => jsonObject (stringifyFields fields)

def stringifyItems : List QueryValue → List String
  | [] => []
  | item :: rest => stringify item :: stringifyItems rest

def stringifyFields : List (String × QueryValue) → List (String × String)
  | [] => []
  | (key, value) :: rest => (key, stringify value) :: stringifyFields rest

end

end CantonSdk.Query.Canonical
