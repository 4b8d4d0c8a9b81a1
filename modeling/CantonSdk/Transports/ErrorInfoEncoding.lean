import CantonSdk.Transports.WireReader

/-!
# Encodings of error details

The protobuf encodings of a `google.rpc.ErrorInfo` without groups, as data: tagged fields in any order and any number,
the entries of the metadata among them, unknown fields at both levels, and variable-length integers with as many groups
as one likes up to ten.
-/

set_option linter.all false

namespace CantonSdk.Transports

open CantonSdk.Base

/-! ## Variable-length integers -/

def groupsValue : List (Fin 128) → Nat
  | [] => 0
  | group :: rest => group + 128 * groupsValue rest

/-- Every byte but the last says that another one follows. -/
def groupsBytes : List (Fin 128) → List UInt8
  | [] => []
  | [group] => [UInt8.ofNat group]
  | group :: rest => UInt8.ofNat (group + 128) :: groupsBytes rest

/-- A legal encoding of a 64-bit number: ten bytes at most, and as many as one likes. -/
structure Varint where
  groups : List (Fin 128)
  groups_ne_nil : groups ≠ []
  length_le : groups.length ≤ 10
  value_lt : groupsValue groups < 2 ^ 64

namespace Varint

def value (varint : Varint) : Nat := groupsValue varint.groups

def bytes (varint : Varint) : List UInt8 := groupsBytes varint.groups

/-- It fits the eight turns of the reader's loop. -/
def Short (varint : Varint) : Prop := varint.groups.length ≤ 8

instance (varint : Varint) : Decidable varint.Short := inferInstanceAs (Decidable (_ ≤ _))

end Varint

/-- The encodings of one number. -/
abbrev VarintOf (n : Nat) := { varint : Varint // varint.value = n }

/-! ## Messages -/

def utf8 (text : String) : List UInt8 := text.toByteArray.data.toList

/-- The value of a field that the reader does not know. -/
inductive UnknownValue
  | varint (value : Varint)
  | fixed64 (bytes : List UInt8) (h : bytes.length = 8)
  | delimited (payload : List UInt8) (length : VarintOf payload.length)
  | fixed32 (bytes : List UInt8) (h : bytes.length = 4)

namespace UnknownValue

def wireType : UnknownValue → Nat
  | varint _ => 0
  | fixed64 _ _ => 1
  | delimited _ _ => 2
  | fixed32 _ _ => 5

def bytes : UnknownValue → List UInt8
  | varint value => value.bytes
  | fixed64 bytes _ => bytes
  | delimited payload length => length.1.bytes ++ payload
  | fixed32 bytes _ => bytes

def Short : UnknownValue → Prop
  | varint value => value.Short
  | delimited _ length => length.1.Short
  | _ => True

end UnknownValue

/-- A field with a number that is not one of the known ones, or with another wire type. -/
structure UnknownField (known : List Nat) where
  number : Nat
  value : UnknownValue
  tag : VarintOf (8 * number + value.wireType)
  number_pos : 0 < number
  number_lt : number < 2 ^ 29
  unknown : value.wireType = 2 → number ∉ known

namespace UnknownField

variable {known : List Nat}

def bytes (field : UnknownField known) : List UInt8 := field.tag.1.bytes ++ field.value.bytes

def Short (field : UnknownField known) : Prop := field.tag.1.Short ∧ field.value.Short

end UnknownField

/-- A field that holds text. -/
structure TextField (number : Nat) where
  text : String
  tag : VarintOf (8 * number + 2)
  length : VarintOf (utf8 text).length

namespace TextField

variable {number : Nat}

def bytes (field : TextField number) : List UInt8 := field.tag.1.bytes ++ (field.length.1.bytes ++ utf8 field.text)

def Short (field : TextField number) : Prop := field.tag.1.Short ∧ field.length.1.Short

end TextField

inductive EntryField
  | key (field : TextField 1)
  | value (field : TextField 2)
  | unknown (field : UnknownField [1, 2])

namespace EntryField

def bytes : EntryField → List UInt8
  | key field => field.bytes
  | value field => field.bytes
  | unknown field => field.bytes

def Short : EntryField → Prop
  | key field => field.Short
  | value field => field.Short
  | unknown field => field.Short

/-- The last key and the last value win. -/
def apply (entry : String × String) : EntryField → String × String
  | key field => (field.text, entry.2)
  | value field => (entry.1, field.text)
  | unknown _ => entry

end EntryField

/-- An entry of the metadata, as a message in a message. -/
structure MetadataField where
  fields : List EntryField
  tag : VarintOf (8 * 3 + 2)
  length : VarintOf (fields.flatMap EntryField.bytes).length

namespace MetadataField

def payload (field : MetadataField) : List UInt8 := field.fields.flatMap EntryField.bytes

def bytes (field : MetadataField) : List UInt8 := field.tag.1.bytes ++ (field.length.1.bytes ++ field.payload)

def Short (field : MetadataField) : Prop :=
  field.tag.1.Short ∧ field.length.1.Short ∧ ∀ entryField ∈ field.fields, entryField.Short

def entry (field : MetadataField) : String × String := field.fields.foldl EntryField.apply ("", "")

end MetadataField

inductive ErrorInfoField
  | reason (field : TextField 1)
  | domain (field : TextField 2)
  | metadata (field : MetadataField)
  | unknown (field : UnknownField [1, 2, 3])

namespace ErrorInfoField

def bytes : ErrorInfoField → List UInt8
  | reason field => field.bytes
  | domain field => field.bytes
  | metadata field => field.bytes
  | unknown field => field.bytes

def Short : ErrorInfoField → Prop
  | reason field => field.Short
  | domain field => field.Short
  | metadata field => field.Short
  | unknown field => field.Short

def apply (info : GrpcErrorInfo) : ErrorInfoField → GrpcErrorInfo
  | reason field => { info with reason := field.text }
  | domain field => { info with domain := field.text }
  | metadata field => { info with metadata := info.metadata.set field.entry.1 field.entry.2 }
  | unknown _ => info

end ErrorInfoField

/-- An encoding of error details, in as many bytes as an array may have. -/
structure ErrorInfoEncoding where
  fields : List ErrorInfoField
  length_lt : (fields.flatMap ErrorInfoField.bytes).length < 2 ^ 53

namespace ErrorInfoEncoding

def bytes (encoding : ErrorInfoEncoding) : List UInt8 := encoding.fields.flatMap ErrorInfoField.bytes

/-- The message that is encoded. -/
def errorInfo (encoding : ErrorInfoEncoding) : GrpcErrorInfo :=
  encoding.fields.foldl ErrorInfoField.apply ⟨"", "", .empty⟩

/-- No integer takes more than eight bytes. -/
def Short (encoding : ErrorInfoEncoding) : Prop := ∀ field ∈ encoding.fields, field.Short

end ErrorInfoEncoding

end CantonSdk.Transports
