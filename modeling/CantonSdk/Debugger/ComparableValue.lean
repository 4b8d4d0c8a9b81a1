import CantonSdk.Base.DecimalText
import CantonSdk.Base.Text
import CantonSdk.Debugger.Normalizer

/-!
# Comparable values

The determinism check compares untyped values after a second normalization: decimal text loses the zeros at
its end, the markers of numerics and parties are dropped, and so are the marker for the type of a record and
every property without a value. Objects are compared key by key, unless only one of the two has nothing but
numeric keys: then their values are compared in order.
-/

set_option linter.all false

namespace CantonSdk.Debugger

open CantonSdk.Base HostValue

/-- `null` or `undefined`. -/
def isNullish : HostValue → Bool
  | .undefined | .null => true
  | _ => false

mutual

/-- `normalizeComparableValue`. -/
def normalizeComparableValue : HostValue → HostValue
  | .string text => .string (comparableText text)
  | .array items => .array (normalizeComparableItems items)
  | .object properties =>
      match stringProperty properties numericMarkerKey, stringProperty properties partyMarkerKey with
      | some numeric, _ => .string (comparableText numeric)
      | none, some party => .string party
      | none, none => .fromEntries (normalizeComparableProperties properties)
  | .undefined => .undefined
  | .null => .null
  | .bool value => .bool value
  | .number value => .number value

def normalizeComparableItems : List HostValue → List HostValue
  | [] => []
  | item :: rest => normalizeComparableValue item :: normalizeComparableItems rest

def normalizeComparableProperties : List (String × HostValue) → List (String × HostValue)
  | [] => []
  | (key, value) :: rest =>
      if key = recordIdMarkerKey ∨ isNullish value = true then normalizeComparableProperties rest
      else (key, normalizeComparableValue value) :: normalizeComparableProperties rest

end

/-- The pattern `^\d+$`. -/
def isPositionalKey (key : String) : Bool := !key.isEmpty && key.toList.all Char.isDigit

/-- Properties with numeric keys in the order of the numbers. -/
def sortPositional (properties : List (String × HostValue)) : List (String × HostValue) :=
  sortBy (compareKey compare fun property => decimalValue property.1) properties

def isPositional (properties : List (String × HostValue)) : Bool :=
  properties.all fun property => isPositionalKey property.1

/-- `keys.sort()`. -/
def sortedKeys (properties : List (String × HostValue)) : List String :=
  sortBy compareText (properties.map Prod.fst)

/-- The properties on the right that the properties on the left are compared with, one for each of them:
those at the same place where one side is positional and the other is not, and else those with the same
key. There are none where the numbers of properties or the keys differ. -/
def partners (left right : List (String × HostValue)) : Option (List HostValue) :=
  if isPositional left = isPositional right then
    if sortedKeys left = sortedKeys right then
      some (left.map fun property => (lookup right property.1).getD .undefined)
    else none
  else if left.length = right.length then
    some (if isPositional left then
        left.map fun property =>
          (right.map Prod.snd).getD (((sortPositional left).map Prod.fst).idxOf property.1) .undefined
      else (sortPositional right).map Prod.snd)
  else none

mutual

/-- `valuesEqual`. The comparison is symmetric, so it does not matter which of two nested values stands
first where the positional side is the right one. -/
def valuesEqual : HostValue → HostValue → Bool
  | .array left, .array right => decide (left.length = right.length) && itemsEqual left right
  | .object left, .object right =>
      match partners left right with
      | some others => propertiesEqual left others
      | none => false
  | .undefined, .undefined => true
  | .null, .null => true
  | .bool left, .bool right => decide (left = right)
  | .number left, .number right => decide (left = right)
  | .string left, .string right => decide (left = right)
  | _, _ => false

def itemsEqual : List HostValue → List HostValue → Bool
  | left :: lefts, right :: rights => valuesEqual left right && itemsEqual lefts rights
  | _, _ => true

/-- The values of properties against the values they are compared with. -/
def propertiesEqual : List (String × HostValue) → List HostValue → Bool
  | (_, left) :: lefts, right :: rights => valuesEqual left right && propertiesEqual lefts rights
  | _, _ => true

end

end CantonSdk.Debugger
