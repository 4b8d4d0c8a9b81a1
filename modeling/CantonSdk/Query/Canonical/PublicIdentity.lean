import CantonSdk.Base.Decimal
import CantonSdk.Base.Framing
import CantonSdk.Base.Text

/-!
# Public identities

`canonicalPublicNumericIdentity` turns the UTF-8 bytes of a semantic identity into decimal text: a
leading one and three digits a byte. Three digits never run into the next three, so distinct identities
have distinct keys. The parts of a compound identity are framed behind their lengths, so that the bytes of
the whole determine them.
-/

set_option linter.all false

namespace CantonSdk.Query.Canonical

open CantonSdk.Base

/-- What building a key can throw besides a validation error. -/
def maxCanonicalPublicIdentityBytes : Nat := 43690

/-- `Buffer.from(identity, "utf8")`. -/
def utf8Bytes (text : String) : List UInt8 := text.toList.flatMap String.utf8EncodeChar

/-- `byte.toString().padStart(3, "0")`. -/
def byteDigits (byte : UInt8) : List Char := padStart 3 '0' (Nat.toDigits 10 byte.toNat)

/-- `canonicalPublicNumericIdentity`; none is its `RangeError`. -/
def canonicalPublicNumericIdentity (identity : String) : Option String :=
  let bytes := utf8Bytes identity
  if bytes.length > maxCanonicalPublicIdentityBytes then none
  else some (String.ofList ('1' :: bytes.flatMap byteDigits))

/-- `canonicalPublicNumericIdentityParts`. -/
def canonicalPublicNumericIdentityParts (parts : List String) : Option String :=
  canonicalPublicNumericIdentity
    (String.join (parts.map fun part => toString (utf8Bytes part).length ++ ":" ++ part))

theorem utf8Bytes_injective {left right : String} (h : utf8Bytes left = utf8Bytes right) :
    left = right := by
  have hbytes : ∀ text : String, (utf8Bytes text).toByteArray = text.toByteArray := by
    intro text
    rw [← String.utf8Encode_toList]
    rfl
  rw [← String.toByteArray_inj, ← hbytes, ← hbytes, h]

theorem length_byteDigits (byte : UInt8) : (byteDigits byte).length = 3 := by
  have hbyte := byte.toNat_lt
  apply length_padStart
  rw [Nat.length_toDigits_le_iff (by decide) (by decide)]
  omega

theorem byteDigits_injective {left right : UInt8} (h : byteDigits left = byteDigits right) :
    left = right := by
  have hvalue : ∀ byte : UInt8, Nat.ofDigitChars 10 (byteDigits byte) 0 = byte.toNat := by
    intro byte
    rw [byteDigits, padStart, ofDigitChars_replicate_zero, Nat.ofDigitChars_ten_toDigits]
  apply UInt8.toNat_inj.mp
  rw [← hvalue, ← hvalue, h]

/-- Blocks of three digits are read back one by one. -/
theorem flatMap_byteDigits_injective {left right : List UInt8}
    (h : left.flatMap byteDigits = right.flatMap byteDigits) : left = right := by
  induction left generalizing right with
  | nil =>
      cases right with
      | nil => rfl
      | cons byte rest =>
          have hlength := congrArg List.length h
          simp [length_byteDigits] at hlength
          omega
  | cons byte rest ih =>
      cases right with
      | nil =>
          have hlength := congrArg List.length h
          simp [length_byteDigits] at hlength
      | cons other rest' =>
          rw [List.flatMap_cons, List.flatMap_cons] at h
          obtain ⟨hbyte, hrest⟩ := List.append_inj h (by rw [length_byteDigits, length_byteDigits])
          rw [byteDigits_injective hbyte, ih hrest]

/-- The key of an identity determines it. -/
theorem canonicalPublicNumericIdentity_injective {left right key : String}
    (hleft : canonicalPublicNumericIdentity left = some key)
    (hright : canonicalPublicNumericIdentity right = some key) : left = right := by
  simp only [canonicalPublicNumericIdentity] at hleft hright
  split at hleft
  · cases hleft
  · split at hright
    · cases hright
    · have hkeys := (Option.some.inj hleft).trans (Option.some.inj hright).symm
      have hdigits := (List.cons.inj (String.ofList_injective hkeys)).2
      exact utf8Bytes_injective (flatMap_byteDigits_injective hdigits)

/-- Keys are plain text. -/
theorem isPlain_canonicalPublicNumericIdentity {identity key : String}
    (h : canonicalPublicNumericIdentity identity = some key) : isPlain key = true := by
  simp only [canonicalPublicNumericIdentity] at h
  split at h
  · cases h
  · obtain rfl := Option.some.inj h
    have hdigit : ∀ c : Char, c.isDigit = true → 32 ≤ c.toNat ∧ c.toNat < 127 := by
      intro c hc
      have hbounds : 48 ≤ c.toNat ∧ c.toNat ≤ 57 := by
        simpa [Char.isDigit, UInt32.le_iff_toNat_le] using hc
      omega
    simp only [isPlain, String.toList_ofList, List.all_cons, List.all_eq_true, Bool.and_eq_true,
      decide_eq_true_eq, List.mem_flatMap]
    refine ⟨by decide, ?_⟩
    intro c hc
    obtain ⟨byte, _, hmem⟩ := hc
    rcases List.mem_append.mp hmem with hpad | hdigits
    · obtain rfl := List.eq_of_mem_replicate hpad
      decide
    · exact hdigit c (Nat.isDigit_of_mem_toDigits (b := 10) (by decide) (by decide) hdigits)

/-! ## Positive decimals -/

/-- Decimal digits of a positive number, without leading zeros. -/
structure IsPositiveDecimal (key : String) : Prop where
  canonical : isCanonicalDecimal key = true
  positive : 0 < decimalValue key

theorem isDigit_byteDigits (byte : UInt8) : (byteDigits byte).all Char.isDigit = true := by
  rw [byteDigits, padStart, List.all_append, toDigits_isDigit, Bool.and_true, List.all_replicate]
  simp

/-- Digits behind a one are the text of a positive number. -/
theorem isPositiveDecimal_of_digits {digits : List Char} (h : digits.all Char.isDigit = true) :
    IsPositiveDecimal (String.ofList ('1' :: digits)) := by
  have hcanonical : isCanonicalDecimal (String.ofList ('1' :: digits)) = true := by
    rw [isCanonicalDecimal, String.toList_ofList, canonicalDigits, h]
    rfl
  refine ⟨hcanonical, Nat.pos_of_ne_zero fun hzero => ?_⟩
  have htext := toString_decimalValue hcanonical
  rw [hzero] at htext
  have hfirst := congrArg String.toList htext
  rw [String.toList_ofList] at hfirst
  exact absurd (List.cons.inj hfirst).1 (by decide)

theorem canonicalPublicNumericIdentity_of_le {identity : String}
    (h : (utf8Bytes identity).length ≤ maxCanonicalPublicIdentityBytes) :
    ∃ key, canonicalPublicNumericIdentity identity = some key ∧ IsPositiveDecimal key := by
  refine ⟨_, if_neg (by omega), isPositiveDecimal_of_digits ?_⟩
  rw [List.all_flatMap]
  exact List.all_eq_true.mpr fun byte _ => isDigit_byteDigits byte

/-! ## Parts -/

/-- What `canonicalPublicNumericIdentityParts` encodes. -/
def framedParts (parts : List String) : String :=
  String.join (parts.map fun part => toString (utf8Bytes part).length ++ ":" ++ part)

theorem utf8Bytes_append (left right : String) : utf8Bytes (left ++ right) = utf8Bytes left ++ utf8Bytes right := by
  rw [utf8Bytes, String.toList_append, List.flatMap_append]
  rfl

/-- The bytes of a length, in decimal. -/
def lengthBytes (length : Nat) : List UInt8 := utf8Bytes (toString length)

theorem lengthBytes_injective : Function.Injective lengthBytes := by
  intro left right h
  rw [← decimalValue_toString left, utf8Bytes_injective h, decimalValue_toString]

/-- A length has no colon in it. -/
theorem colon_not_mem_lengthBytes (length : Nat) : 58 ∉ lengthBytes length := by
  rw [lengthBytes, utf8Bytes, Nat.toString_eq_ofList_toDigits, String.toList_ofList]
  intro hcolon
  obtain ⟨c, hc, hmem⟩ := List.mem_flatMap.mp hcolon
  have hdigit : c.isDigit = true := List.all_eq_true.mp (toDigits_isDigit length) c hc
  have hten : ∀ digit < 10, 58 ∉ String.utf8EncodeChar (Nat.digitChar digit) := by decide
  rw [← digitChar_of_isDigit hdigit] at hmem
  exact hten _ (toNat_sub_lt_of_isDigit hdigit) hmem

/-- The bytes of the framed parts are their bytes, framed. -/
theorem utf8Bytes_framedParts (parts : List String) :
    utf8Bytes (framedParts parts) = framed lengthBytes 58 (parts.map utf8Bytes) := by
  induction parts with
  | nil => rfl
  | cons part rest ih =>
      have hjoin : framedParts (part :: rest) = toString (utf8Bytes part).length ++ ":" ++ part ++ framedParts rest := by
        rw [framedParts, List.map_cons, String.join_cons]
        rfl
      rw [hjoin, utf8Bytes_append, utf8Bytes_append, utf8Bytes_append, ih, List.map_cons, framed_cons,
        show utf8Bytes ":" = [58] from rfl, List.append_assoc, List.append_assoc]
      rfl

theorem framedParts_injective : Function.Injective framedParts := by
  intro left right h
  have hbytes := congrArg utf8Bytes h
  rw [utf8Bytes_framedParts, utf8Bytes_framedParts] at hbytes
  exact List.map_injective_iff.mpr (fun _ _ => utf8Bytes_injective)
    (framed_injective colon_not_mem_lengthBytes lengthBytes_injective hbytes)

/-- For any two lists of parts within the limit there are keys, both positive decimals, and the keys are the same only if
the lists are. -/
theorem public_keys_lossless {left right : List String}
    (hleft : (utf8Bytes (framedParts left)).length ≤ maxCanonicalPublicIdentityBytes)
    (hright : (utf8Bytes (framedParts right)).length ≤ maxCanonicalPublicIdentityBytes) :
    ∃ leftKey rightKey, canonicalPublicNumericIdentityParts left = some leftKey ∧
      canonicalPublicNumericIdentityParts right = some rightKey ∧
      IsPositiveDecimal leftKey ∧ IsPositiveDecimal rightKey ∧ (leftKey = rightKey → left = right) := by
  obtain ⟨leftKey, hleftKey, hleftPositive⟩ := canonicalPublicNumericIdentity_of_le hleft
  obtain ⟨rightKey, hrightKey, hrightPositive⟩ := canonicalPublicNumericIdentity_of_le hright
  refine ⟨leftKey, rightKey, hleftKey, hrightKey, hleftPositive, hrightPositive, ?_⟩
  rintro rfl
  exact framedParts_injective (canonicalPublicNumericIdentity_injective hleftKey hrightKey)

/-- A colon at the end of a part is not one at the start of the next. -/
theorem public_keys_lossless_colon :
    ∃ leftKey rightKey, canonicalPublicNumericIdentityParts ["a:", "1"] = some leftKey ∧
      canonicalPublicNumericIdentityParts ["a", ":1"] = some rightKey ∧
      IsPositiveDecimal leftKey ∧ IsPositiveDecimal rightKey ∧ (leftKey = rightKey → ["a:", "1"] = ["a", ":1"]) :=
  public_keys_lossless (by decide +kernel) (by decide +kernel)

end CantonSdk.Query.Canonical
