import CantonSdk.Hashing.CantonHash
import Mathlib.Tactic.SplitIfs

/-!
# Hashes and fingerprints

A hash is the multihash of SHA-256 over a purpose and the content; the fingerprint of a public key is the text of such
a hash. SHA-256 itself is the host's and stays a parameter.
-/

set_option linter.all false

namespace CantonSdk.Hashing

/-! ## Hexadecimal text -/

/-- The two digits of a byte. -/
def hexByte (byte : UInt8) : List Char := [Nat.digitChar (byte.toNat / 16), Nat.digitChar (byte.toNat % 16)]

def toHex (bytes : List UInt8) : String := String.ofList (bytes.flatMap hexByte)

theorem digitChar_injective : ∀ m < 16, ∀ n < 16, Nat.digitChar m = Nat.digitChar n → m = n := by decide

theorem hexByte_injective {b b' : UInt8} (h : hexByte b = hexByte b') : b = b' := by
  have hb := UInt8.toNat_lt b
  have hb' := UInt8.toNat_lt b'
  simp only [hexByte, List.cons.injEq, and_true] at h
  have hhigh := digitChar_injective _ (by omega) _ (by omega) h.1
  have hlow := digitChar_injective _ (Nat.mod_lt _ (by decide)) _ (Nat.mod_lt _ (by decide)) h.2
  apply UInt8.toNat_inj.mp
  omega

theorem toHex_injective {bytes bytes' : List UInt8} (h : toHex bytes = toHex bytes') : bytes = bytes' := by
  have hchars := String.ofList_injective h
  clear h
  induction bytes generalizing bytes' with
  | nil =>
      cases bytes' with
      | nil => rfl
      | cons byte rest => simp [hexByte] at hchars
  | cons byte bytes ih =>
      cases bytes' with
      | nil => simp [hexByte] at hchars
      | cons byte' bytes' =>
          rw [List.flatMap_cons, List.flatMap_cons] at hchars
          obtain ⟨hbyte, hrest⟩ := List.append_inj hchars rfl
          rw [hexByte_injective hbyte, ih hrest]

/-! ## Hashes -/

inductive CantonHashPurpose where
  | topologyTransactionSignature
  | publicKeyFingerprint
  | decentralizedNamespace
  deriving DecidableEq

def CantonHashPurpose.value : CantonHashPurpose → UInt32
  | .topologyTransactionSignature => 11
  | .publicKeyFingerprint => 12
  | .decentralizedNamespace => 37

/-- The four bytes of a number, the highest first. -/
def writeUInt32BE (value : UInt32) : List UInt8 :=
  [(value >>> 24).toUInt8, (value >>> 16).toUInt8, (value >>> 8).toUInt8, value.toUInt8]

def sha256MultihashPrefix : List UInt8 := [0x12, 0x20]

def derX509SubjectPublicKeyInfoFormat : String := "derX509SubjectPublicKeyInfo"

section

variable (sha256 : List UInt8 → List UInt8)

def computeCantonHash (content : List UInt8) (purpose : CantonHashPurpose) : List UInt8 :=
  sha256MultihashPrefix ++ sha256 (writeUInt32BE purpose.value ++ content)

def computeCantonHashHex (content : List UInt8) (purpose : CantonHashPurpose) : String :=
  toHex (computeCantonHash sha256 content purpose)

/-- An Ed25519 key stands for the `SubjectPublicKeyInfo` around it. -/
def normalizePublicKeyForFingerprint (publicKey : List UInt8) (format : Option String) : List UInt8 :=
  if format ≠ some derX509SubjectPublicKeyInfoFormat then publicKey
  else
    match (tryExtractEd25519PublicKeyFromSpki publicKey []).1 with
    | .ok (some key) => key
    | _ => publicKey

def computeCantonPublicKeyFingerprint (publicKey : Option (List UInt8)) (format : Option String) : Option String :=
  match publicKey with
  | none => none
  | some publicKey =>
      if publicKey.length = 0 then none
      else some (computeCantonHashHex sha256 (normalizePublicKeyForFingerprint publicKey format) .publicKeyFingerprint)

/-- Every key that has bytes has a fingerprint. -/
theorem fingerprint_isSome {publicKey : List UInt8} {format : Option String} :
    (computeCantonPublicKeyFingerprint sha256 (some publicKey) format).isSome = true ↔ publicKey ≠ [] := by
  rw [computeCantonPublicKeyFingerprint]
  split_ifs with h
  · simp [List.length_eq_zero_iff.mp h]
  · simpa using fun hnil => h (by rw [hnil, List.length_nil])

end

end CantonSdk.Hashing
