import CantonSdk.Base.DecimalText
import CantonSdk.DamlValues.ValueConverter

/-!
# What values mean

The DAML value that a Ledger API value denotes at a type, if it is a value of that type. A record denotes its
fields in the order of the type, whether or not they are labelled, and a numeric the number that its text
spells.
-/

set_option linter.all false

namespace CantonSdk.DamlValues

open CantonSdk.Base CantonSdk.Query.Canonical CantonSdk.Query.Grpc

/-- A DAML value. -/
inductive Meaning
  | unit
  | bool (value : Bool)
  | int64 (value : Int)
  | date (epochDay : Int)
  | timestamp (micros : Int)
  | numeric (value : Rat)
  | party (value : String)
  | text (value : String)
  | contractId (value : String)
  | absent
  | present (value : Meaning)
  | list (elements : List Meaning)
  | textMap (entries : List (String × Meaning))
  | genMap (entries : List (Meaning × Meaning))
  | record (fields : List Meaning)
  | variant (constructorName : String) (value : Meaning)
  | enum (constructorName : String)

/-! ## Scalars -/

def int64Meaning (text : String) : Option Meaning :=
  ((signedDecimal text).filter fun n => decide (-9223372036854775808 ≤ n ∧ n ≤ 9223372036854775807)).map .int64

def dateMeaning (epochDay : Int) : Option Meaning :=
  if -719162 ≤ epochDay ∧ epochDay ≤ 2932896 then some (.date epochDay) else none

def timestampMeaning (micros : String) : Option Meaning :=
  ((signedDecimal micros).filter fun n => decide (-62135596800000000 ≤ n ∧ n ≤ 253402300799999999)).map .timestamp

/-- A number with these digits is a numeric of the scale, or of some scale where none is given. -/
def isRepresentable (numericScale : Option Int) (whole fraction : List Char) : Bool :=
  match numericScale with
  | some scale =>
      decide (0 ≤ scale ∧ scale ≤ 37 ∧ ((trimZeros fraction).length : Int) ≤ scale
        ∧ ((whole.dropWhile fun c => c = '0').length : Int) + scale ≤ 38)
  | none =>
      decide ((trimZeros fraction).length ≤ 37
        ∧ (whole.dropWhile fun c => c = '0').length + (trimZeros fraction).length ≤ 38)

/-- The number that the text of a numeric spells. -/
def spelledNumber (text : String) (whole fraction : List Char) : Rat :=
  decimalNumber (decide (text.toList.head? = some '-')) whole fraction

/-- Text of the pattern `[+-]?\d{1,38}(.\d{0,37})?` that is representable without loss of precision. -/
def numericMeaning (numericScale : Option Int) (text : String) : Option Meaning :=
  match numericParts text with
  | none => none
  | some (whole, fraction) =>
      if whole.length ≤ 38 ∧ fraction.length ≤ 37 ∧ isRepresentable numericScale whole fraction = true then
        some (.numeric (spelledNumber text whole fraction))
      else none

def partyMeaning (party : String) : Option Meaning := if party.isEmpty then none else some (.party party)

def contractIdMeaning (contractId : String) : Option Meaning :=
  if contractId.isEmpty then none else some (.contractId contractId)

/-! ## Values -/

/-- The values of the fields of a record, in the order of its type. -/
def sourceFields (fields : List (String × Option Value)) (descriptorFields : List (RecordField DamlTypeDescriptor)) :
    Option (List (Option Value)) :=
  if fields.all fun field => !field.1.isEmpty then
    if (fields.map Prod.fst).Nodup ∧ (fields.map Prod.fst).Perm (descriptorFields.map RecordField.damlLabel) then
      some (descriptorFields.map fun descriptorField =>
        ((fields.find? fun field => decide (field.1 = descriptorField.damlLabel)).map Prod.snd).join)
    else none
  else if (fields.all fun field => field.1.isEmpty) ∧ fields.length = descriptorFields.length then
    some (fields.map Prod.snd)
  else none

/-- `list.mapM`, for a reading that need not give anything. -/
def readAll {α β : Type} (read : α → Option β) : List α → Option (List β)
  | [] => some []
  | entry :: rest => (read entry).bind fun value => (readAll read rest).map (value :: ·)

theorem readAll_eq_some {α β : Type} {read : α → Option β} {list : List α} {results : List β} :
    readAll read list = some results ↔ List.Forall₂ (fun entry value => read entry = some value) list results := by
  induction list generalizing results with
  | nil =>
      rw [readAll, Option.some.injEq, List.forall₂_nil_left_iff]
      exact eq_comm
  | cons entry rest ih =>
      rw [readAll, Option.bind_eq_some_iff]
      constructor
      · intro h
        obtain ⟨value, hvalue, h⟩ := h
        obtain ⟨values, hvalues, rfl⟩ := Option.map_eq_some_iff.mp h
        exact .cons hvalue (ih.mp hvalues)
      · intro h
        cases h with
        | cons hvalue hvalues => exact ⟨_, hvalue, Option.map_eq_some_iff.mpr ⟨_, ih.mpr hvalues, rfl⟩⟩

section Denotation

variable (denote : Value → DamlTypeDescriptor → Option Meaning)

def denoteEntry (descriptor : DamlTypeDescriptor) (entry : String × Option Value) : Option (String × Meaning) :=
  (entry.2.bind (denote · descriptor)).map (entry.1, ·)

def denotePair (key value : DamlTypeDescriptor) (entry : Option Value × Option Value) :
    Option (Meaning × Meaning) :=
  (entry.1.bind (denote · key)).bind fun keyMeaning =>
    (entry.2.bind (denote · value)).map (keyMeaning, ·)

def denoteField (field : RecordField DamlTypeDescriptor × Option Value) : Option Meaning :=
  field.2.bind (denote · field.1.type)

def denoteValue (value : Value) (descriptor : DamlTypeDescriptor) : Option Meaning :=
  match value, descriptor with
  | .unit, .primitive .unit _ => some .unit
  | .bool value, .primitive .bool _ => some (.bool value)
  | .int64 value, .primitive .int64 _ => int64Meaning value
  | .date epochDay, .primitive .date _ => dateMeaning epochDay
  | .timestamp micros, .primitive .timestamp _ => timestampMeaning micros
  | .numeric value, .primitive .numeric numericScale => numericMeaning numericScale value
  | .party value, .primitive .party _ => partyMeaning value
  | .text value, .primitive .text _ => some (.text value)
  | .contractId value, .contractId _ => contractIdMeaning value
  | .optional none, .optional _ => some .absent
  | .optional (some value), .optional element => (denote value element).map .present
  | .list elements, .list element => (readAll (denote · element) elements).map .list
  | .textMap entries, .textMap element =>
      if (entries.map Prod.fst).Nodup then (readAll (denoteEntry denote element) entries).map .textMap else none
  | .genMap entries, .genMap key element => (readAll (denotePair denote key element) entries).map .genMap
  | .record fields, .record descriptorFields =>
      (sourceFields fields descriptorFields).bind fun values =>
        (readAll (denoteField denote) (descriptorFields.zip values)).map .record
  | .variant constructorName payload, .variant constructors =>
      (constructors.find? fun candidate => decide (candidate.constructorName = constructorName)).bind fun found =>
        (payload.bind (denote · found.payload)).map (.variant constructorName)
  | .enum constructorName, .enum constructors =>
      if constructorName ∈ constructors then some (.enum constructorName) else none
  | _, _ => none

end Denotation

/-- What a value denotes at a type, where its references are resolved in at most `fuel` nested steps. -/
def denote (registry : Registry) : Nat → Value → DamlTypeDescriptor → Option Meaning
  | 0, _, _ => none
  | fuel + 1, value, .namedReference identity typeArguments =>
      (registry identity typeArguments).bind (denote registry fuel value)
  | fuel + 1, value, descriptor => denoteValue (denote registry fuel) value descriptor

end CantonSdk.DamlValues
