import CantonSdk.Hashing.CantonHash
import Mathlib.Tactic.Ring

/-!
# Elements stay in bounds

An element ends where its length says, behind its header and within the bytes, unless its length is given by four
bytes of which the first has its top bit set: such a length is read as a negative number. A key is extracted without a
look at where the outer sequence ends.
-/

set_option linter.all false

namespace CantonSdk.Hashing

open CantonSdk.Base

variable {α β : Type}

/-- The number that octets stand for. -/
def bigEndian (octets : List UInt8) : Nat := octets.foldl (fun value octet => value * 256 + octet.toNat) 0

/-- What the first byte of the length behind a tag at the given place says. -/
def lengthByte (bytes : List UInt8) (offset : Int) : Nat := ((byteAt bytes (offset + 1)).getD 0).toNat

/-- The length field behind a tag at the given place, read as an unsigned number. -/
def lengthField (bytes : List UInt8) (offset : Int) : Nat :=
  if lengthByte bytes offset < 128 then lengthByte bytes offset
  else bigEndian ((bytes.drop (offset + 2).toNat).take (lengthByte bytes offset - 128))

/-- The length behind the tag is given by four bytes, of which the first has its top bit set. -/
def HasTopBitLength (bytes : List UInt8) (offset : Int) : Prop :=
  lengthByte bytes offset = 132 ∧ offset + 6 ≤ bytes.length ∧ 128 ≤ ((byteAt bytes (offset + 2)).getD 0).toNat

instance (bytes : List UInt8) (offset : Int) : Decidable (HasTopBitLength bytes offset) :=
  inferInstanceAs (Decidable (_ ∧ _ ∧ _))

/-- The length field, read as 32 bits with a sign. -/
def signedLength (bytes : List UInt8) (offset : Int) : Int :=
  if HasTopBitLength bytes offset then lengthField bytes offset - 2 ^ 32 else lengthField bytes offset

/-- The place behind tag and length. -/
def contentPlace (bytes : List UInt8) (offset : Int) : Int := offset + 2 + (lengthByte bytes offset - 128 : Nat)

/-- The place behind the element, by its length with a sign. -/
def stopPlace (bytes : List UInt8) (offset : Int) : Int := contentPlace bytes offset + signedLength bytes offset

def elementAt (bytes : List UInt8) (offset : Int) : Asn1Element :=
  ⟨byteAt bytes offset, contentPlace bytes offset, some (stopPlace bytes offset)⟩

/-- The length of an element is one that is supported, and nothing of the element is beyond the bytes. -/
structure IsElement (bytes : List UInt8) (offset : Int) : Prop where
  header : offset + 2 ≤ bytes.length
  supported : lengthByte bytes offset ≠ 128 ∧ lengthByte bytes offset ≤ 132
  content : contentPlace bytes offset ≤ bytes.length
  stop : stopPlace bytes offset ≤ bytes.length

theorem shift_or (n : Nat) (octet : UInt8) :
    BitVec.ofNat 32 n <<< 8 ||| octet.toBitVec.zeroExtend 32 = BitVec.ofNat 32 (n * 256 + octet.toNat) := by
  apply BitVec.eq_of_toNat_eq
  have hoctet : octet.toNat < 256 := octet.toNat_lt
  have hsmall : octet.toBitVec.toNat % 2 ^ 32 = octet.toNat := by
    rw [UInt8.toNat_toBitVec, Nat.mod_eq_of_lt (by omega)]
  have hshift : (n % 2 ^ 32) <<< 8 % 2 ^ 32 = (n % 2 ^ 24) <<< 8 := by
    rw [Nat.shiftLeft_eq, Nat.shiftLeft_eq]
    omega
  rw [BitVec.toNat_or, BitVec.toNat_shiftLeft, BitVec.toNat_ofNat, BitVec.toNat_setWidth, hsmall, hshift,
    ← Nat.shiftLeft_add_eq_or_of_lt hoctet, BitVec.toNat_ofNat, Nat.shiftLeft_eq]
  omega

/-! ## Numbers of at most four octets -/

theorem foldl_octets (n : Nat) (octets : List UInt8) :
    octets.foldl (fun value octet => value * 256 + octet.toNat) n = n * 256 ^ octets.length + bigEndian octets := by
  induction octets generalizing n with
  | nil => simp [bigEndian]
  | cons octet octets ih =>
      rw [bigEndian, List.foldl_cons, List.foldl_cons, ih, ih, List.length_cons]
      ring

theorem bigEndian_cons (octet : UInt8) (octets : List UInt8) :
    bigEndian (octet :: octets) = octet.toNat * 256 ^ octets.length + bigEndian octets := by
  rw [bigEndian, List.foldl_cons, foldl_octets, Nat.zero_mul, Nat.zero_add]

theorem bigEndian_lt (octets : List UInt8) : bigEndian octets < 256 ^ octets.length := by
  induction octets with
  | nil => simp [bigEndian]
  | cons octet octets ih =>
      have hoctet := Nat.mul_le_mul_right (256 ^ octets.length) (Nat.succ_le_of_lt octet.toNat_lt)
      rw [Nat.succ_mul] at hoctet
      rw [bigEndian_cons, List.length_cons, pow_succ]
      omega

/-- A signed number of at most four octets is the unsigned one, but for four octets with the top bit set. -/
theorem toInt_bigEndian {octets : List UInt8} (hlength : octets.length ≤ 4) :
    (BitVec.ofNat 32 (bigEndian octets)).toInt = bigEndian octets ∨
      octets.length = 4 ∧ 128 ≤ (octets.head?.getD 0).toNat := by
  have hlt := bigEndian_lt octets
  have hle : 256 ^ octets.length ≤ 256 ^ 4 := Nat.pow_le_pow_right (by decide) hlength
  have hvalue : (BitVec.ofNat 32 (bigEndian octets)).toNat = bigEndian octets := by
    rw [BitVec.toNat_ofNat, Nat.mod_eq_of_lt (by omega)]
  rw [BitVec.toInt_eq_toNat_cond, hvalue]
  by_cases hsmall : 2 * bigEndian octets < 2 ^ 32
  · exact .inl (if_pos hsmall)
  · rw [if_neg hsmall]
    refine .inr ?_
    cases octets with
    | nil => exact absurd hsmall (by decide)
    | cons octet octets =>
        rw [List.length_cons] at hlength hle hlt ⊢
        have hthree : octets.length = 3 := by
          by_contra hne
          have hpow : 256 ^ (octets.length + 1) ≤ 256 ^ 3 := Nat.pow_le_pow_right (by decide) (by omega)
          omega
        have hrest := bigEndian_lt octets
        rw [bigEndian_cons, hthree] at hsmall hlt
        rw [hthree] at hrest
        refine ⟨by omega, ?_⟩
        show 128 ≤ octet.toNat
        omega

/-- Four octets with the top bit set are read as a negative number. -/
theorem toInt_neg {octets : List UInt8} (hlength : octets.length = 4) (hbit : 128 ≤ (octets.head?.getD 0).toNat) :
    (BitVec.ofNat 32 (bigEndian octets)).toInt = bigEndian octets - 2 ^ 32 := by
  have hlt := bigEndian_lt octets
  rw [hlength] at hlt
  rw [BitVec.toInt_eq_toNat_cond, BitVec.toNat_ofNat, Nat.mod_eq_of_lt (by omega)]
  cases octets with
  | nil => exact absurd hlength (by decide)
  | cons octet octets =>
      have hthree : octets.length = 3 := Nat.succ.inj hlength
      have htop : 128 ≤ octet.toNat := hbit
      rw [bigEndian_cons, hthree] at hlt ⊢
      rw [if_neg (by omega)]
      rfl

/-! ## What is read -/

/-- Places inside the bytes. -/
def Inside (bytes : List UInt8) (places : List Int) : Prop := ∀ place ∈ places, 0 ≤ place ∧ place < bytes.length

theorem byteAt_eq {bytes : List UInt8} {offset : Int} (h : 0 ≤ offset) : byteAt bytes offset = bytes[offset.toNat]? := by
  rw [byteAt, if_pos h]

/-- Whatever was read before, the run ends with the result and reads places inside the bytes. -/
def RunsInside (bytes : List UInt8) (x : Reading α) (result : Except String α) : Prop :=
  ∃ places, Inside bytes places ∧ ∀ log, x bytes log = (result, log ++ places)

section RunsInside

variable {bytes : List UInt8} {x : Reading α} {f : α → Reading β} {a : α} {message : String}

theorem runsInside_pure : RunsInside bytes (pure a : Reading α) (.ok a) :=
  ⟨[], fun _ hplace => absurd hplace List.not_mem_nil, fun log => by rw [List.append_nil, run_pure]⟩

theorem runsInside_throw : RunsInside bytes (throw message : Reading α) (.error message) :=
  ⟨[], fun _ hplace => absurd hplace List.not_mem_nil, fun log => by rw [List.append_nil, run_throw]⟩

theorem runsInside_read : RunsInside bytes (read : Reading (List UInt8)) (.ok bytes) :=
  ⟨[], fun _ hplace => absurd hplace List.not_mem_nil, fun log => by rw [List.append_nil, run_read]⟩

theorem RunsInside.bind {result : Except String β} (hx : RunsInside bytes x (.ok a)) (hf : RunsInside bytes (f a) result) :
    RunsInside bytes (x >>= f) result := by
  obtain ⟨places, hplaces, hx⟩ := hx
  obtain ⟨others, hothers, hf⟩ := hf
  refine ⟨places ++ others, ?_, fun log => ?_⟩
  · intro place hplace
    rcases List.mem_append.mp hplace with hmem | hmem
    · exact hplaces place hmem
    · exact hothers place hmem
  · rw [run_bind, hx, andThen_ok, hf, List.append_assoc]

/-- Whatever was read before, the run fails and reads places inside the bytes. -/
def FailsInside (bytes : List UInt8) (x : Reading α) : Prop := ∃ message, RunsInside bytes x (.error message)

theorem failsInside_throw : FailsInside bytes (throw message : Reading α) := ⟨message, runsInside_throw⟩

theorem RunsInside.bind_fails (hx : RunsInside bytes x (.ok a)) (hf : FailsInside bytes (f a)) : FailsInside bytes (x >>= f) :=
  ⟨hf.choose, hx.bind hf.choose_spec⟩

theorem FailsInside.bind (hx : FailsInside bytes x) : FailsInside bytes (x >>= f) := by
  obtain ⟨message, places, hplaces, hx⟩ := hx
  exact ⟨message, places, hplaces, fun log => by rw [run_bind, hx, andThen_error]⟩

theorem runsInside_readByte {offset : Int} (h : 0 ≤ offset) (hlt : offset < bytes.length) :
    RunsInside bytes (readByte offset) (.ok (byteAt bytes offset)) := by
  refine ⟨[offset], fun place hplace => ?_, fun log => rfl⟩
  rw [List.mem_singleton.mp hplace]
  exact ⟨h, hlt⟩

end RunsInside

theorem runsInside_readLengthBytes {bytes : List UInt8} (n start count : Nat) (h : start + count ≤ bytes.length) :
    RunsInside bytes (readLengthBytes (BitVec.ofNat 32 n) start count)
      (.ok (BitVec.ofNat 32 (((bytes.drop start).take count).foldl (fun value octet => value * 256 + octet.toNat) n))) := by
  induction count generalizing n start with
  | zero => exact runsInside_pure
  | succ count ih =>
      have hstart : start < bytes.length := by omega
      have hread : byteAt bytes (start : Int) = some bytes[start] := by
        rw [byteAt_eq (Int.natCast_nonneg start), Int.toNat_natCast, List.getElem?_eq_getElem hstart]
      rw [readLengthBytes]
      refine (runsInside_readByte (Int.natCast_nonneg start) (by omega)).bind ?_
      rw [hread, Option.getD_some, shift_or, ← Int.natCast_add_one, List.drop_eq_getElem_cons hstart, List.take_succ_cons,
        List.foldl_cons]
      exact ih (n * 256 + bytes[start].toNat) (start + 1) (by omega)

/-- How the top bit of a length byte is told, and what is left without it. -/
theorem lengthByte_bits (firstByte : UInt8) :
    (firstByte &&& 0x80 = 0 ↔ firstByte.toNat < 128) ∧ (firstByte &&& 0x7f).toNat = firstByte.toNat % 128 := by
  have hbits : ∀ n < 256, n &&& 128 = 0 ↔ n < 128 := by decide +kernel
  refine ⟨?_, ?_⟩
  · rw [← hbits firstByte.toNat firstByte.toNat_lt, ← UInt8.toNat_inj, UInt8.toNat_and]
    rfl
  · rw [UInt8.toNat_and]
    exact Nat.and_two_pow_sub_one_eq_mod firstByte.toNat 7

section Length

variable {bytes : List UInt8} {start : Nat} (hstart : start < bytes.length)

include hstart

theorem firstByte_eq : byteAt bytes ((start : Int) - 1 + 1) = some bytes[start] := by
  rw [sub_add_cancel, byteAt_eq (Int.natCast_nonneg start), Int.toNat_natCast, List.getElem?_eq_getElem hstart]

theorem lengthByte_eq : lengthByte bytes ((start : Int) - 1) = bytes[start].toNat := by
  rw [lengthByte, firstByte_eq hstart, Option.getD_some]

theorem signedLength_short (hshort : bytes[start].toNat < 128) :
    signedLength bytes ((start : Int) - 1) = bytes[start].toNat := by
  have htop : ¬ HasTopBitLength bytes ((start : Int) - 1) := by
    rintro ⟨hfirst, -, -⟩
    rw [lengthByte_eq hstart] at hfirst
    omega
  rw [signedLength, if_neg htop, lengthField, lengthByte_eq hstart, if_pos hshort]

theorem signedLength_long (hlong : 128 ≤ bytes[start].toNat) (hcount : bytes[start].toNat ≤ 132)
    (hwithin : start + 1 + bytes[start].toNat % 128 ≤ bytes.length) :
    signedLength bytes ((start : Int) - 1)
      = (BitVec.ofNat 32 (bigEndian ((bytes.drop (start + 1)).take (bytes[start].toNat % 128)))).toInt := by
  have hoctets : ((bytes.drop (start + 1)).take (bytes[start].toNat % 128)).length = bytes[start].toNat % 128 := by
    rw [List.length_take, List.length_drop]
    omega
  have hplace : ((start : Int) - 1 + 2).toNat = start + 1 := by omega
  have hfield : lengthField bytes ((start : Int) - 1)
      = bigEndian ((bytes.drop (start + 1)).take (bytes[start].toNat % 128)) := by
    have hcut : bytes[start].toNat - 128 = bytes[start].toNat % 128 := by omega
    rw [lengthField, lengthByte_eq hstart, if_neg (by omega), hplace, hcut]
  have hsecond : bytes[start].toNat % 128 = 4 →
      ((bytes.drop (start + 1)).take (bytes[start].toNat % 128)).head? = byteAt bytes ((start : Int) - 1 + 2) := by
    intro hfour
    rw [List.head?_take, if_neg (by omega), List.head?_drop, byteAt_eq (by omega), hplace]
  rw [signedLength, hfield]
  split
  · rename_i htop
    have hfour : bytes[start].toNat % 128 = 4 := by
      rw [← lengthByte_eq hstart, htop.1]
    have hbit := htop.2.2
    rw [← hsecond hfour] at hbit
    exact (toInt_neg (hoctets.trans hfour) hbit).symm
  · rename_i htop
    rcases toInt_bigEndian (hoctets.trans_le (show bytes[start].toNat % 128 ≤ 4 by omega)) with heq | ⟨hfour, hbit⟩
    · exact heq.symm
    · rw [hoctets] at hfour
      rw [hsecond hfour] at hbit
      refine absurd ⟨?_, ?_, hbit⟩ htop
      · rw [lengthByte_eq hstart]
        omega
      · omega

/-- The length behind a tag: the place behind it and the length with a sign, if it is supported and not cut off. -/
theorem runsInside_readAsn1Length :
    lengthByte bytes ((start : Int) - 1) ≠ 128 ∧ lengthByte bytes ((start : Int) - 1) ≤ 132
        ∧ contentPlace bytes ((start : Int) - 1) ≤ bytes.length
        ∧ RunsInside bytes (readAsn1Length start)
            (.ok ⟨some (signedLength bytes ((start : Int) - 1)), contentPlace bytes ((start : Int) - 1)⟩) ∨
      ¬ (lengthByte bytes ((start : Int) - 1) ≠ 128 ∧ lengthByte bytes ((start : Int) - 1) ≤ 132
        ∧ contentPlace bytes ((start : Int) - 1) ≤ bytes.length)
        ∧ FailsInside bytes (readAsn1Length start) := by
  have hrun : ∀ {result : Except String Asn1Length}, RunsInside bytes (readLengthFrom (some bytes[start]) start) result →
      RunsInside bytes (readAsn1Length start) result := by
    intro result h
    refine runsInside_read.bind ?_
    rw [if_neg (by omega)]
    refine (runsInside_readByte (Int.natCast_nonneg start) (by omega)).bind ?_
    rw [byteAt_eq (Int.natCast_nonneg start), Int.toNat_natCast, List.getElem?_eq_getElem hstart]
    exact h
  have hbits := lengthByte_bits bytes[start]
  have hbyte := bytes[start].toNat_lt
  rw [contentPlace, lengthByte_eq hstart]
  by_cases hshort : bytes[start].toNat < 128
  · have hnext : (start : Int) - 1 + 2 + (bytes[start].toNat - 128 : Nat) = start + 1 := by omega
    rw [signedLength_short hstart hshort, hnext]
    refine .inl ⟨by omega, by omega, by omega, hrun ?_⟩
    rw [readLengthFrom, if_pos (hbits.1.mpr hshort)]
    exact runsInside_pure
  · have hlong : ∀ {result : Except String Asn1Length},
        RunsInside bytes (readLongLength (bytes[start].toNat % 128) start) result →
        RunsInside bytes (readAsn1Length start) result := by
      intro result h
      refine hrun ?_
      rw [readLengthFrom, if_neg fun h => hshort (hbits.1.mp h), hbits.2]
      exact h
    by_cases hcount : bytes[start].toNat % 128 = 0 ∨ bytes[start].toNat % 128 > 4
    · have hfails : FailsInside bytes (readLongLength (bytes[start].toNat % 128) start) := by
        refine runsInside_read.bind_fails ?_
        rw [if_pos hcount]
        exact failsInside_throw
      exact .inr ⟨by omega, hfails.choose, hlong hfails.choose_spec⟩
    · by_cases hwithin : (start : Int) + 1 + (bytes[start].toNat % 128 : Nat) > bytes.length
      · have hfails : FailsInside bytes (readLongLength (bytes[start].toNat % 128) start) := by
          refine runsInside_read.bind_fails ?_
          rw [if_neg hcount, if_pos hwithin]
          exact failsInside_throw
        exact .inr ⟨by omega, hfails.choose, hlong hfails.choose_spec⟩
      · have hnext : (start : Int) - 1 + 2 + (bytes[start].toNat - 128 : Nat) = start + 1 + (bytes[start].toNat % 128 : Nat) := by
          omega
        rw [signedLength_long hstart (by omega) (by omega) (by omega), hnext]
        refine .inl ⟨by omega, by omega, by omega, hlong (runsInside_read.bind ?_)⟩
        rw [if_neg hcount, if_neg hwithin]
        exact (runsInside_readLengthBytes 0 (start + 1) _ (by omega)).bind runsInside_pure

end Length

/-! ## Elements -/

section Element

variable {bytes : List UInt8} {offset : Int}

/-- What an element is read as, behind its tag. -/
theorem runsInside_element (h : -1 ≤ offset) (hheader : offset + 2 ≤ bytes.length) (tag : Option UInt8) :
    IsElement bytes offset
        ∧ RunsInside bytes (readAsn1Length (offset + 1) >>= elementOf tag) (.ok { elementAt bytes offset with tag }) ∨
      ¬ IsElement bytes offset ∧ FailsInside bytes (readAsn1Length (offset + 1) >>= elementOf tag) := by
  obtain ⟨start, hstart⟩ := Int.eq_ofNat_of_zero_le (show 0 ≤ offset + 1 by omega)
  obtain rfl : offset = (start : Int) - 1 := by omega
  rw [hstart]
  rcases runsInside_readAsn1Length (show start < bytes.length by omega) with ⟨hne, hle, hcontent, hrun⟩ | ⟨hnot, hrun⟩
  · by_cases hstop : stopPlace bytes ((start : Int) - 1) > bytes.length
    · refine .inr ⟨fun h => absurd h.stop (by omega), hrun.bind_fails (runsInside_read.bind_fails ?_)⟩
      rw [if_pos (by simpa [stopPlace] using hstop)]
      exact failsInside_throw
    · refine .inl ⟨⟨by omega, ⟨hne, hle⟩, hcontent, by omega⟩, hrun.bind (runsInside_read.bind ?_)⟩
      rw [if_neg (by simpa [stopPlace] using hstop)]
      exact runsInside_pure
  · exact .inr ⟨fun h => hnot ⟨h.supported.1, h.supported.2, h.content⟩, hrun.bind⟩

/-- An element is read as what stands at its place. -/
theorem runsInside_readAsn1Element (bytes : List UInt8) (h : 0 ≤ offset) :
    IsElement bytes offset ∧ RunsInside bytes (readAsn1Element offset) (.ok (elementAt bytes offset)) ∨
      ¬ IsElement bytes offset ∧ FailsInside bytes (readAsn1Element offset) := by
  by_cases hheader : offset + 2 ≤ bytes.length
  · have hrun : ∀ {result : Except String Asn1Element},
        RunsInside bytes (readAsn1Length (offset + 1) >>= elementOf (byteAt bytes offset)) result →
        RunsInside bytes (readAsn1Element offset) result := by
      intro result hrest
      refine runsInside_read.bind ?_
      rw [if_neg (by omega)]
      exact (runsInside_readByte h (by omega)).bind hrest
    rcases runsInside_element (by omega) hheader (byteAt bytes offset) with ⟨his, helement⟩ | ⟨hnot, message, helement⟩
    · exact .inl ⟨his, hrun helement⟩
    · exact .inr ⟨hnot, message, hrun helement⟩
  · refine .inr ⟨fun h => hheader h.header, runsInside_read.bind_fails ?_⟩
    rw [if_pos (by omega)]
    exact failsInside_throw

end Element

end CantonSdk.Hashing
