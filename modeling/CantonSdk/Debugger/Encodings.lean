import CantonSdk.Debugger.ComparableValue

/-!
# Replayed values and what they denote

The values in the effects of a replay are untyped. `Encodes` says which untyped values stand for a typed
one, `SameValue` when two typed values are one DAML value up to the scale of numerics, the type of records
and whether fields are labelled, and `discerned` which pairs of values the comparison of untyped values
tells apart.
-/

set_option linter.all false

namespace CantonSdk.Debugger

open CantonSdk.Base HostValue

/-! ## Encodings -/

mutual

/-- The untyped values that stand for a value. Absent values are `undefined` or `null`, numerics may go
without their marker, and records with or without the marker for their type. -/
def Encodes : LedgerValue → HostValue → Prop
  | .unit, h => h = .null
  | .bool value, h => h = .bool value
  | .int64 value, h => h = .string value
  | .date value, h => h = .number value
  | .timestamp value, h => h = .string value
  | .numeric value, h => h = .object [(numericMarkerKey, .string value)] ∨ h = .string value
  | .party value, h => h = .object [(partyMarkerKey, .string value)]
  | .text value, h => h = .string value
  | .contractId value, h => h = .object [(contractIdMarkerKey, .string value)]
  | .optional none, h => h = .undefined ∨ h = .null
  | .optional (some value), h => Encodes value h
  | .list elements, h => ∃ items, h = .array items ∧ EncodesItems elements items
  | .textMap entries, h =>
      ∃ properties, h = .object (ownOrder properties) ∧ EncodesEntries entries properties
  | .genMap entries, h => ∃ items, h = .array items ∧ EncodesPairs entries items
  | .record _ fields, h =>
      ∃ properties marker, h = .object (ownOrder (properties ++ marker)) ∧
        (marker = [] ∨ ∃ recordId, marker = [(recordIdMarkerKey, recordId)]) ∧
        EncodesFields 0 fields properties
  | .variant constructor_ value, h =>
      ∃ payload, h = .object [("constructor", .string constructor_), ("value", payload)] ∧
        Encodes value payload
  | .enum constructor_, h => h = .string constructor_

def EncodesItems : List LedgerValue → List HostValue → Prop
  | [], items => items = []
  | element :: rest, items => ∃ h tail, items = h :: tail ∧ Encodes element h ∧ EncodesItems rest tail

def EncodesEntries : List (String × LedgerValue) → List (String × HostValue) → Prop
  | [], properties => properties = []
  | (key, value) :: rest, properties =>
      ∃ h tail, properties = (key, h) :: tail ∧ Encodes value h ∧ EncodesEntries rest tail

def EncodesPairs : List (LedgerValue × LedgerValue) → List HostValue → Prop
  | [], items => items = []
  | (key, value) :: rest, items =>
      ∃ k h tail, items = .object [("key", k), ("value", h)] :: tail ∧ Encodes key k ∧ Encodes value h ∧
        EncodesPairs rest tail

def EncodesFields : Nat → List (String × LedgerValue) → List (String × HostValue) → Prop
  | _, [], properties => properties = []
  | index, (label, value) :: rest, properties =>
      ∃ h tail, properties = (getRecordFieldKey label index, h) :: tail ∧ Encodes value h ∧
        EncodesFields (index + 1) rest tail

end

/-! ## Equal DAML values -/

mutual

/-- One DAML value: numerics by the number they denote, text maps by what they hold at each key, and
records field by field, whatever their type ids, with labels compared where both sides have them. -/
def SameValue : LedgerValue → LedgerValue → Prop
  | .unit, .unit => True
  | .bool left, .bool right => left = right
  | .int64 left, .int64 right => left = right
  | .date left, .date right => left = right
  | .timestamp left, .timestamp right => left = right
  | .numeric left, .numeric right => numericValue left = numericValue right
  | .party left, .party right => left = right
  | .text left, .text right => left = right
  | .contractId left, .contractId right => left = right
  | .optional none, .optional none => True
  | .optional (some left), .optional (some right) => SameValue left right
  | .list left, .list right => SameItems left right
  | .textMap left, .textMap right => left.length = right.length ∧ SameEntries left right
  | .genMap left, .genMap right => SamePairs left right
  | .record _ left, .record _ right => SameFields left right
  | .variant constructor_ left, .variant constructor_' right =>
      constructor_ = constructor_' ∧ SameValue left right
  | .enum left, .enum right => left = right
  | _, _ => False
termination_by structural left => left

def SameItems : List LedgerValue → List LedgerValue → Prop
  | [], [] => True
  | left :: lefts, right :: rights => SameValue left right ∧ SameItems lefts rights
  | _, _ => False
termination_by structural left => left

/-- Every entry on the left has one on the right with its key and its value. -/
def SameEntries : List (String × LedgerValue) → List (String × LedgerValue) → Prop
  | [], _ => True
  | (key, left) :: lefts, rights => (∃ right, (key, right) ∈ rights ∧ SameValue left right) ∧
      SameEntries lefts rights
termination_by structural left => left

def SamePairs : List (LedgerValue × LedgerValue) → List (LedgerValue × LedgerValue) → Prop
  | [], [] => True
  | (key, left) :: lefts, (key', right) :: rights =>
      SameValue key key' ∧ SameValue left right ∧ SamePairs lefts rights
  | _, _ => False
termination_by structural left => left

def SameFields : List (String × LedgerValue) → List (String × LedgerValue) → Prop
  | [], [] => True
  | (label, left) :: lefts, (label', right) :: rights =>
      (label = label' ∨ label.isEmpty = true ∨ label'.isEmpty = true) ∧ SameValue left right ∧
        SameFields lefts rights
  | _, _ => False
termination_by structural left => left

end

/-! ## What the comparison tells apart -/

/-- Unit, an absent optional, or a present one of such a value: what untyped values show as `null` or
`undefined`. -/
def LedgerValue.isNullish : LedgerValue → Bool
  | .unit => true
  | .optional none => true
  | .optional (some value) => value.isNullish
  | _ => false

/-- Texts that do not become one when the zeros at the end of a decimal are dropped. -/
def textsApart (left right : String) : Bool :=
  decide (left = right ∨ comparableText left ≠ comparableText right)

/-- The keys that mean something in an untyped value. -/
def isMarkerKey (key : String) : Bool :=
  decide (key = numericMarkerKey ∨ key = partyMarkerKey ∨ key = recordIdMarkerKey)

def keysUnmarked (entries : List (String × LedgerValue)) : Bool :=
  entries.all fun entry => !isMarkerKey entry.1

/-- The entries that the comparison sees. -/
def shownEntries (entries : List (String × LedgerValue)) : List (String × LedgerValue) :=
  entries.filter fun entry => !entry.2.isNullish

def keysPositional (entries : List (String × LedgerValue)) : Bool :=
  entries.all fun entry => isPositionalKey entry.1

/-- The other side has the keys of the entries that the comparison does not see. -/
def hiddenShared (entries others : List (String × LedgerValue)) : Bool :=
  entries.all fun entry => !entry.2.isNullish || (others.map Prod.fst).contains entry.1

/-- Both sides show entries with numeric keys only, or neither does, or their numbers differ. -/
def shapesAgree (left right : List (String × LedgerValue)) : Bool :=
  decide (keysPositional (shownEntries left) = keysPositional (shownEntries right)
    ∨ (shownEntries left).length ≠ (shownEntries right).length)

/-- Fields without labels. -/
def isUnlabelled (fields : List (String × LedgerValue)) : Bool := fields.all fun field => field.1.isEmpty

/-- Fields with labels, none of them a number or a marker. -/
def isLabelled (fields : List (String × LedgerValue)) : Bool :=
  fields.all fun field => !field.1.isEmpty && !isPositionalKey field.1 && !isMarkerKey field.1

/-- Fields that the comparison sees at the same places. -/
def hiddenAligned (left right : List (String × LedgerValue)) : Bool :=
  decide (left.map (fun field => field.2.isNullish) = right.map fun field => field.2.isNullish)

/-- Both sides have the same labels or none, or only one side has labels and they show the same places. -/
def fieldsAligned (left right : List (String × LedgerValue)) : Bool :=
  (isLabelled left && decide (left.map Prod.fst = right.map Prod.fst))
    || (isUnlabelled left && isUnlabelled right)
    || (((isUnlabelled left && isLabelled right) || (isLabelled left && isUnlabelled right))
      && hiddenAligned left right)

mutual

/-- Two values of one type that the comparison does not confuse: no two texts are one decimal, no optional
holds what looks absent where the other is absent, what a text map does not show is on both sides and its
keys are not compared by their order, and no hidden field shifts the fields of a record where only one side
has labels. -/
def discerned : LedgerValue → LedgerValue → Bool
  | .unit, .unit => true
  | .bool _, .bool _ => true
  | .int64 left, .int64 right => textsApart left right
  | .date _, .date _ => true
  | .timestamp left, .timestamp right => textsApart left right
  | .numeric _, .numeric _ => true
  | .party _, .party _ => true
  | .text left, .text right => textsApart left right
  | .contractId left, .contractId right => textsApart left right
  | .optional none, .optional none => true
  | .optional (some left), .optional none => !left.isNullish
  | .optional none, .optional (some right) => !right.isNullish
  | .optional (some left), .optional (some right) => discerned left right
  | .list left, .list right => discernedItems left right
  | .textMap left, .textMap right =>
      keysUnmarked left && keysUnmarked right && hiddenShared left right && hiddenShared right left
        && shapesAgree left right && discernedEntries left right
  | .genMap left, .genMap right => discernedPairs left right
  | .record _ left, .record _ right =>
      decide (left.length = right.length) && fieldsAligned left right && discernedFields left right
  | .variant constructor_ left, .variant constructor_' right =>
      textsApart constructor_ constructor_' && (decide (constructor_ ≠ constructor_') || discerned left right)
  | .enum left, .enum right => textsApart left right
  | _, _ => false
termination_by structural left => left

def discernedItems : List LedgerValue → List LedgerValue → Bool
  | left :: lefts, right :: rights => discerned left right && discernedItems lefts rights
  | _, _ => true
termination_by structural left => left

def discernedEntries : List (String × LedgerValue) → List (String × LedgerValue) → Bool
  | [], _ => true
  | (key, left) :: lefts, rights =>
      (rights.all fun entry => decide (entry.1 ≠ key) || discerned left entry.2) && discernedEntries lefts rights
termination_by structural left => left

def discernedPairs : List (LedgerValue × LedgerValue) → List (LedgerValue × LedgerValue) → Bool
  | (key, left) :: lefts, (key', right) :: rights =>
      discerned key key' && discerned left right && discernedPairs lefts rights
  | _, _ => true
termination_by structural left => left

def discernedFields : List (String × LedgerValue) → List (String × LedgerValue) → Bool
  | (_, left) :: lefts, (_, right) :: rights => discerned left right && discernedFields lefts rights
  | _, _ => true
termination_by structural left => left

end

end CantonSdk.Debugger
