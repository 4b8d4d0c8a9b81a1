import CantonSdk.Base.Effectful

/-!
# Public keys in ASN.1

How the key is found in a `SubjectPublicKeyInfo`, from which the fingerprint of a party is computed. Offsets are the
numbers of the host: they may become negative, and a byte behind either end of the buffer is undefined. Every place
that is read is recorded.
-/

set_option linter.all false

namespace CantonSdk.Hashing

open CantonSdk.Base

def asn1SequenceTag : Nat := 0x30

def asn1ObjectIdentifierTag : Nat := 0x06

def asn1BitStringTag : Nat := 0x03

def ed25519ObjectIdentifier : List UInt8 := [0x2b, 0x65, 0x70]

/-- A computation that reads the bytes, and keeps the places that it has read. -/
abbrev Reading := Effectful (List UInt8) String (List Int)

def byteAt (bytes : List UInt8) (offset : Int) : Option UInt8 :=
  if 0 ≤ offset then bytes[offset.toNat]? else none

def readByte (offset : Int) : Reading (Option UInt8) := do
  let bytes ← read
  modify (· ++ [offset])
  return byteAt bytes offset

/-- A length, which is no number when its byte is undefined, and the place behind it. -/
structure Asn1Length where
  length : Option Int
  nextOffset : Int
  deriving DecidableEq

structure Asn1Element where
  tag : Option UInt8
  contentOffset : Int
  endOffset : Option Int
  deriving DecidableEq

/-- The loop of `readAsn1Length`: 32-bit shifts, where a byte that is undefined adds nothing. -/
def readLengthBytes (length : BitVec 32) (offset : Int) : Nat → Reading (BitVec 32)
  | 0 => return length
  | count + 1 => do
      let byte ← readByte offset
      readLengthBytes (length <<< 8 ||| (byte.getD 0).toBitVec.zeroExtend 32) (offset + 1) count

def readLongLength (lengthByteCount : Nat) (offset : Int) : Reading Asn1Length := do
  let bytes ← read
  if lengthByteCount = 0 ∨ lengthByteCount > 4 then throw "ASN.1 length encoding is unsupported."
  else if offset + 1 + lengthByteCount > bytes.length then throw "ASN.1 long-form length is truncated."
  else do
    let length ← readLengthBytes 0 (offset + 1) lengthByteCount
    return ⟨some length.toInt, offset + 1 + lengthByteCount⟩

/-- What the first byte of a length says. -/
def readLengthFrom (firstByte : Option UInt8) (offset : Int) : Reading Asn1Length :=
  match firstByte with
  | none => return ⟨none, offset + 1⟩
  | some firstByte =>
      if firstByte &&& 0x80 = 0 then return ⟨some firstByte.toNat, offset + 1⟩
      else readLongLength (firstByte &&& 0x7f).toNat offset

def readAsn1Length (offset : Int) : Reading Asn1Length := do
  let bytes ← read
  if offset ≥ bytes.length then throw "ASN.1 length is truncated."
  else do
    let firstByte ← readByte offset
    readLengthFrom firstByte offset

/-- An element whose length has been read, if it ends within the bytes; an end that is no number is not beyond them. -/
def elementOf (tag : Option UInt8) (lengthResult : Asn1Length) : Reading Asn1Element := do
  let bytes ← read
  let endOffset : Option Int := lengthResult.length.map (lengthResult.nextOffset + ·)
  if endOffset.any fun (endOffset : Int) => decide (endOffset > bytes.length) then throw "ASN.1 element content is truncated."
  else return ⟨tag, lengthResult.nextOffset, endOffset⟩

def readAsn1Element (offset : Int) : Reading Asn1Element := do
  let bytes ← read
  if offset + 2 > bytes.length then throw "ASN.1 element header is truncated."
  else do
    let tag ← readByte offset
    let lengthResult ← readAsn1Length (offset + 1)
    elementOf tag lengthResult

/-- A bound of `subarray`: counted from the end when it is negative, and never outside the bytes. -/
def relativeIndex (length : Nat) (index : Int) : Nat :=
  if index < 0 then (length + index).toNat else min index.toNat length

/-- `subarray(start, end)`; an end that is no number is the start of the bytes. -/
def subarray (bytes : List UInt8) (start : Int) (stop : Option Int) : List UInt8 :=
  let first := relativeIndex bytes.length start
  let last := relativeIndex bytes.length (stop.getD 0)
  (bytes.drop first).take (last - first)

def isEd25519 (spki : List UInt8) (algorithmIdentifier : Asn1Element) : Bool :=
  algorithmIdentifier.tag == some asn1ObjectIdentifierTag.toUInt8
    && subarray spki algorithmIdentifier.contentOffset algorithmIdentifier.endOffset == ed25519ObjectIdentifier

/-- The key in a bit string without unused bits. -/
def keyOf (spki : List UInt8) (subjectPublicKey : Asn1Element) : Option (List UInt8) :=
  let bitString := subarray spki subjectPublicKey.contentOffset subjectPublicKey.endOffset
  if subjectPublicKey.tag == some asn1BitStringTag.toUInt8 && bitString.length == 33 && bitString.head? == some 0 then
    some bitString.tail
  else none

/-- The key behind an algorithm. An end that is no number leads to an element without a tag. -/
def extractSubjectPublicKey (algorithm : Asn1Element) : Reading (Option (List UInt8)) := do
  let spki ← read
  match algorithm.endOffset with
  | none => return none
  | some endOffset => do
      let subjectPublicKey ← readAsn1Element endOffset
      return keyOf spki subjectPublicKey

def extractBehindAlgorithm (algorithm : Asn1Element) : Reading (Option (List UInt8)) := do
  let spki ← read
  let algorithmIdentifier ← readAsn1Element algorithm.contentOffset
  if isEd25519 spki algorithmIdentifier then extractSubjectPublicKey algorithm else return none

/-- The body of the `try`. -/
def extractEd25519PublicKey : Reading (Option (List UInt8)) := do
  let outer ← readAsn1Element 0
  if outer.tag ≠ some asn1SequenceTag.toUInt8 then return none
  else do
    let algorithm ← readAsn1Element outer.contentOffset
    if algorithm.tag ≠ some asn1SequenceTag.toUInt8 then return none else extractBehindAlgorithm algorithm

def tryExtractEd25519PublicKeyFromSpki : Reading (Option (List UInt8)) :=
  tryCatch extractEd25519PublicKey fun _ => return none

end CantonSdk.Hashing
