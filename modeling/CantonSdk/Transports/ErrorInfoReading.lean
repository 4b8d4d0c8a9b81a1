import CantonSdk.Transports.ErrorInfoEncoding
import Mathlib.Tactic.Ring

/-!
# What the reader makes of an encoding

Each part of an encoding whose integers are short is read as what it encodes, with the rest left for the next part;
an integer of nine or ten bytes makes the reader throw.
-/

set_option linter.all false

namespace CantonSdk.Transports

open CantonSdk.Base

/-- The bytes behind the offset. -/
def WireReader.rest (reader : WireReader) : List UInt8 := reader.bytes.drop reader.offset

/-- Reading these bytes gives the value and stands behind them. -/
def ReadsAs {α : Type} (read : WireReader → Except WireError (α × WireReader)) (bytes : List UInt8) (a : α) : Prop :=
  ∀ reader tail, reader.rest = bytes ++ tail → ∃ next, read reader = .ok (a, next) ∧ next.rest = tail

/-- Reading these bytes throws. -/
def Refuses {α : Type} (read : WireReader → Except WireError α) (bytes : List UInt8) : Prop :=
  ∀ reader tail, reader.rest = bytes ++ tail → ∃ error, read reader = .error error

namespace WireReader

variable {reader : WireReader}

theorem remaining_iff : reader.remaining = true ↔ reader.rest ≠ [] := by
  rw [remaining, decide_eq_true_iff, rest, ne_eq, List.drop_eq_nil_iff, Nat.not_le]

theorem rest_ofBytes (bytes : List UInt8) : (ofBytes bytes).rest = bytes := List.drop_zero

theorem rest_cons {byte : UInt8} {tail : List UInt8} (h : reader.rest = byte :: tail) :
    ∃ hinside : reader.offset < reader.bytes.length, reader.bytes[reader.offset] = byte ∧
      (⟨reader.bytes, reader.offset + 1, hinside⟩ : WireReader).rest = tail := by
  have hinside : reader.offset < reader.bytes.length := by
    by_contra hnot
    rw [rest, List.drop_eq_nil_iff.mpr (Nat.not_lt.mp hnot)] at h
    cases h
  rw [rest, List.drop_eq_getElem_cons hinside] at h
  exact ⟨hinside, (List.cons.inj h).1, (List.cons.inj h).2⟩

end WireReader

/-! ## Integers -/

theorem roundToDouble_of_lt {n : Nat} (h : n < 2 ^ 53) : roundToDouble n = n := if_pos h

theorem toNat_last (group : Fin 128) : (UInt8.ofNat group).toNat = group := by
  rw [UInt8.toNat_ofNat']
  omega

theorem toNat_continued (group : Fin 128) : (UInt8.ofNat (group + 128)).toNat = group + 128 := by
  rw [UInt8.toNat_ofNat']
  omega

theorem groupsBytes_continued (group next : Fin 128) (rest : List (Fin 128)) :
    groupsBytes (group :: next :: rest) = UInt8.ofNat (group + 128) :: groupsBytes (next :: rest) := rfl

/-- The value is exact as long as a double can hold it. -/
theorem varintFrom_reads {groups : List (Fin 128)} (hne : groups ≠ []) {turns : Nat} (result shift : Nat)
    (hlength : groups.length ≤ turns) {reader : WireReader} {tail : List UInt8}
    (h : reader.rest = groupsBytes groups ++ tail) :
    ∃ value next, WireReader.varintFrom turns result shift reader = .ok (value, next) ∧ next.rest = tail ∧
      (result + groupsValue groups * shift < 2 ^ 53 → value = result + groupsValue groups * shift) := by
  induction turns generalizing groups result shift reader with
  | zero => exact absurd (List.eq_nil_of_length_eq_zero (by omega)) hne
  | succ turns ih =>
      match groups, hne with
      | [group], _ =>
          obtain ⟨hinside, hbyte, hrest⟩ := WireReader.rest_cons h
          refine ⟨WireReader.addGroup result shift (UInt8.ofNat group), _, ?_, hrest, fun hlt => ?_⟩
          · rw [WireReader.varintFrom, dif_pos hinside, hbyte, if_pos (by rw [toNat_last]; exact group.isLt)]
          · rw [groupsValue, groupsValue, Nat.mul_zero, Nat.add_zero] at hlt ⊢
            rw [WireReader.addGroup, toNat_last, Nat.mod_eq_of_lt group.isLt, roundToDouble_of_lt hlt]
      | group :: following :: rest, _ =>
          rw [groupsBytes_continued] at h
          obtain ⟨hinside, hbyte, hrest⟩ := WireReader.rest_cons h
          obtain ⟨value, next, hread, htail, hvalue⟩ := ih (List.cons_ne_nil following rest)
            (WireReader.addGroup result shift (UInt8.ofNat (group + 128))) (shift * 128)
            (Nat.le_of_succ_le_succ hlength) hrest
          refine ⟨value, next, ?_, htail, fun hlt => ?_⟩
          · rw [WireReader.varintFrom, dif_pos hinside, hbyte, if_neg (by rw [toNat_continued]; omega), hread]
          · have hsplit : result + groupsValue (group :: following :: rest) * shift
                = result + group * shift + groupsValue (following :: rest) * (shift * 128) := by
              rw [groupsValue]
              ring
            have hadd : WireReader.addGroup result shift (UInt8.ofNat (group + 128)) = result + group * shift := by
              rw [WireReader.addGroup, toNat_continued, Nat.add_mod_right, Nat.mod_eq_of_lt group.isLt]
              exact roundToDouble_of_lt (Nat.lt_of_le_of_lt (hsplit ▸ Nat.le_add_right _ _) hlt)
            rw [hsplit] at hlt ⊢
            rw [← hadd] at hlt ⊢
            exact hvalue hlt

theorem varintFrom_refuses {groups : List (Fin 128)} {turns result shift : Nat} (hlength : turns < groups.length)
    {reader : WireReader} {tail : List UInt8} (h : reader.rest = groupsBytes groups ++ tail) :
    WireReader.varintFrom turns result shift reader = .error .varintTooLong := by
  induction turns generalizing groups result shift reader with
  | zero => rfl
  | succ turns ih =>
      match groups, hlength with
      | [_], hlength => exact absurd hlength (by simp)
      | group :: following :: rest, hlength =>
          rw [groupsBytes_continued] at h
          obtain ⟨hinside, hbyte, hrest⟩ := WireReader.rest_cons h
          rw [WireReader.varintFrom, dif_pos hinside, hbyte, if_neg (by rw [toNat_continued]; omega)]
          exact ih (Nat.lt_of_succ_lt_succ hlength) hrest

theorem varint_reads {varint : Varint} (hshort : varint.Short) (hlt : varint.value < 2 ^ 53) :
    ReadsAs WireReader.varint varint.bytes varint.value := by
  intro reader tail h
  obtain ⟨value, next, hread, htail, hvalue⟩ := varintFrom_reads varint.groups_ne_nil 0 1 hshort h
  rw [Nat.zero_add, Nat.mul_one] at hvalue
  exact ⟨next, by rw [WireReader.varint, hread, hvalue hlt]; rfl, htail⟩

theorem varint_refuses {varint : Varint} (hlong : ¬ varint.Short) : Refuses WireReader.varint varint.bytes :=
  fun _ _ h => ⟨_, varintFrom_refuses (Nat.not_le.mp hlong) h⟩

/-! ## Bytes, text and what is skipped -/

theorem rawBytes_reads {payload : List UInt8} {length : VarintOf payload.length} (hshort : length.1.Short)
    (hlt : payload.length < 2 ^ 53) : ReadsAs WireReader.rawBytes (length.1.bytes ++ payload) payload := by
  intro reader tail h
  rw [List.append_assoc] at h
  obtain ⟨next, hread, hrest⟩ := varint_reads hshort (by rwa [length.2]) reader _ h
  rw [length.2] at hread
  have hinside : next.offset + payload.length ≤ next.bytes.length := by
    have hlength := congrArg List.length hrest
    rw [WireReader.rest, List.length_drop, List.length_append] at hlength
    have hnext := next.inside
    omega
  have hpayload : (next.bytes.drop next.offset).take payload.length = payload := by
    rw [show next.bytes.drop next.offset = payload ++ tail from hrest, List.take_left']
    rfl
  refine ⟨⟨next.bytes, next.offset + payload.length, hinside⟩, ?_, ?_⟩
  · rw [WireReader.rawBytes, hread]
    change (if _ : next.offset + payload.length ≤ next.bytes.length then _ else _) = _
    rw [dif_pos hinside, hpayload]
    rfl
  · rw [WireReader.rest, ← List.drop_drop, show next.bytes.drop next.offset = payload ++ tail from hrest,
      List.drop_left]

theorem rawBytes_refuses {payload : List UInt8} {length : VarintOf payload.length} (hlong : ¬ length.1.Short) :
    Refuses WireReader.rawBytes (length.1.bytes ++ payload) := by
  intro reader tail h
  rw [List.append_assoc] at h
  obtain ⟨error, herror⟩ := varint_refuses hlong reader _ h
  exact ⟨error, by rw [WireReader.rawBytes, herror]; rfl⟩

theorem decodeText_utf8 (text : String) : decodeText (utf8 text) = .ok (withoutMark text) := by
  have htext : String.fromUTF8? ⟨(utf8 text).toArray⟩ = some text := dif_pos text.isValidUTF8
  rw [decodeText, htext]

theorem string_reads {text : String} {length : VarintOf (utf8 text).length} (hshort : length.1.Short)
    (hlt : (utf8 text).length < 2 ^ 53) :
    ReadsAs WireReader.string (length.1.bytes ++ utf8 text) (withoutMark text) := by
  intro reader tail h
  obtain ⟨next, hread, hrest⟩ := rawBytes_reads hshort hlt reader tail h
  refine ⟨next, ?_, hrest⟩
  rw [WireReader.string, hread]
  change (decodeText (utf8 text) >>= fun text => Except.ok (text, next)) = _
  rw [decodeText_utf8]
  rfl

theorem string_refuses {text : String} {length : VarintOf (utf8 text).length} (hlong : ¬ length.1.Short) :
    Refuses WireReader.string (length.1.bytes ++ utf8 text) := by
  intro reader tail h
  obtain ⟨error, herror⟩ := rawBytes_refuses hlong reader tail h
  exact ⟨error, by rw [WireReader.string, herror]; rfl⟩

theorem advance_reads {reader : WireReader} {bytes tail : List UInt8} (h : reader.rest = bytes ++ tail) :
    ∃ next, reader.advance bytes.length = .ok next ∧ next.rest = tail := by
  have hinside : reader.offset + bytes.length ≤ reader.bytes.length := by
    have hlength := congrArg List.length h
    rw [WireReader.rest, List.length_drop, List.length_append] at hlength
    have hreader := reader.inside
    omega
  refine ⟨_, dif_pos hinside, ?_⟩
  rw [WireReader.rest, ← List.drop_drop, show reader.bytes.drop reader.offset = bytes ++ tail from h, List.drop_left]

theorem skip_reads {value : UnknownValue} (hshort : value.Short) (hlt : value.bytes.length < 2 ^ 53)
    {reader : WireReader} {tail : List UInt8} (h : reader.rest = value.bytes ++ tail) :
    ∃ next, reader.skip value.wireType = .ok next ∧ next.rest = tail := by
  cases value with
  | varint value =>
      obtain ⟨_, next, hread, hrest, _⟩ := varintFrom_reads value.groups_ne_nil 0 1 hshort h
      refine ⟨next, ?_, hrest⟩
      change reader.varint.map Prod.snd = _
      rw [WireReader.varint, hread]
      rfl
  | fixed64 bytes hbytes =>
      obtain ⟨next, hread, hrest⟩ := advance_reads h
      exact ⟨next, by rw [← hread, UnknownValue.bytes, hbytes]; rfl, hrest⟩
  | delimited payload length =>
      have hpayload : payload.length < 2 ^ 53 := by
        rw [UnknownValue.bytes, List.length_append] at hlt
        omega
      obtain ⟨next, hread, hrest⟩ := rawBytes_reads hshort hpayload reader tail h
      refine ⟨next, ?_, hrest⟩
      change reader.rawBytes.map Prod.snd = _
      rw [hread]
      rfl
  | fixed32 bytes hbytes =>
      obtain ⟨next, hread, hrest⟩ := advance_reads h
      exact ⟨next, by rw [← hread, UnknownValue.bytes, hbytes]; rfl, hrest⟩

theorem skip_refuses {value : UnknownValue} (hlong : ¬ value.Short) {reader : WireReader} {tail : List UInt8}
    (h : reader.rest = value.bytes ++ tail) : ∃ error, reader.skip value.wireType = .error error := by
  cases value with
  | varint value =>
      obtain ⟨error, herror⟩ := varint_refuses hlong reader tail h
      refine ⟨error, ?_⟩
      change reader.varint.map Prod.snd = _
      rw [herror]
      rfl
  | fixed64 bytes hbytes => exact absurd trivial hlong
  | delimited payload length =>
      obtain ⟨error, herror⟩ := rawBytes_refuses hlong reader tail h
      refine ⟨error, ?_⟩
      change reader.rawBytes.map Prod.snd = _
      rw [herror]
      rfl
  | fixed32 bytes hbytes => exact absurd trivial hlong

/-! ## Entries of the metadata -/

theorem value_wireType_lt (value : UnknownValue) : value.wireType < 8 := by
  cases value <;> simp [UnknownValue.wireType]

/-- A tag is read as its number and wire type. -/
theorem tag_reads {number wireType : Nat} {tag : VarintOf (8 * number + wireType)} (hshort : tag.1.Short)
    (hnumber : number < 2 ^ 29) (hwireType : wireType < 8) {reader : WireReader} {tail : List UInt8}
    (h : reader.rest = tag.1.bytes ++ tail) :
    ∃ next, reader.varint = .ok (8 * number + wireType, next) ∧ next.rest = tail := by
  obtain ⟨next, hread, hrest⟩ := varint_reads hshort (by rw [tag.2]; omega) reader tail h
  exact ⟨next, by rw [hread, tag.2], hrest⟩

/-- What the reader makes of a field of an entry. -/
def EntryField.read (entry : String × String) : EntryField → String × String
  | key field => (withoutMark field.text, entry.2)
  | value field => (entry.1, withoutMark field.text)
  | unknown _ => entry

theorem readEntryField_tag {state : EntryState} {tag : Nat} {reader : WireReader}
    (h : state.reader.varint = .ok (tag, reader)) :
    readEntryField state =
      if tag / 8 = 1 ∧ tag % 8 = 2 then
        reader.string >>= fun (key, reader) => .ok { state with reader, key }
      else if tag / 8 = 2 ∧ tag % 8 = 2 then
        reader.string >>= fun (value, reader) => .ok { state with reader, value }
      else reader.skip (tag % 8) >>= fun reader => .ok { state with reader } := by
  rw [readEntryField, h]
  rfl

theorem readEntryField_throws {state : EntryState} {error : WireError} (h : state.reader.varint = .error error) :
    readEntryField state = .error error := by
  rw [readEntryField, h]
  rfl

theorem tag_parts (number : Nat) {wireType : Nat} (hwireType : wireType < 8) :
    (8 * number + wireType) / 8 = number ∧ (8 * number + wireType) % 8 = wireType := by
  omega

theorem readEntryField_unknown {field : UnknownField [1, 2]} {state : EntryState} {reader : WireReader}
    (h : state.reader.varint = .ok (8 * field.number + field.value.wireType, reader)) :
    readEntryField state = reader.skip field.value.wireType >>= fun reader => .ok { state with reader } := by
  obtain ⟨hnumber, htype⟩ := tag_parts field.number (value_wireType_lt field.value)
  have hunknown : ∀ number ∈ [1, 2], ¬ (field.number = number ∧ field.value.wireType = 2) := by
    rintro number hmem ⟨rfl, htwo⟩
    exact field.unknown htwo hmem
  rw [readEntryField_tag h, hnumber, htype, if_neg (hunknown 1 (by decide)), if_neg (hunknown 2 (by decide))]

theorem readEntryField_reads {field : EntryField} (hshort : field.Short) (hlt : field.bytes.length < 2 ^ 53)
    {state : EntryState} {tail : List UInt8} (h : state.reader.rest = field.bytes ++ tail) :
    ∃ next, readEntryField state = .ok next ∧ next.reader.rest = tail ∧
      (next.key, next.value) = field.read (state.key, state.value) := by
  cases field with
  | key field =>
      rw [EntryField.bytes, TextField.bytes, List.append_assoc] at h
      rw [EntryField.bytes, TextField.bytes, List.length_append, List.length_append] at hlt
      obtain ⟨behind, htag, hbehind⟩ := tag_reads hshort.1 (by decide) (by decide) h
      obtain ⟨next, hread, hrest⟩ := string_reads hshort.2 (by omega) behind tail hbehind
      exact ⟨⟨next, withoutMark field.text, state.value⟩, by rw [readEntryField_tag htag, hread]; rfl, hrest, rfl⟩
  | value field =>
      rw [EntryField.bytes, TextField.bytes, List.append_assoc] at h
      rw [EntryField.bytes, TextField.bytes, List.length_append, List.length_append] at hlt
      obtain ⟨behind, htag, hbehind⟩ := tag_reads hshort.1 (by decide) (by decide) h
      obtain ⟨next, hread, hrest⟩ := string_reads hshort.2 (by omega) behind tail hbehind
      exact ⟨⟨next, state.key, withoutMark field.text⟩, by rw [readEntryField_tag htag, hread]; rfl, hrest, rfl⟩
  | unknown field =>
      rw [EntryField.bytes, UnknownField.bytes, List.append_assoc] at h
      rw [EntryField.bytes, UnknownField.bytes, List.length_append] at hlt
      obtain ⟨behind, htag, hbehind⟩ := tag_reads hshort.1 field.number_lt (value_wireType_lt field.value) h
      obtain ⟨next, hread, hrest⟩ := skip_reads hshort.2 (by omega) hbehind
      exact ⟨⟨next, state.key, state.value⟩, by rw [readEntryField_unknown htag, hread]; rfl, hrest, rfl⟩

theorem readEntryField_refuses {field : EntryField} (hlong : ¬ field.Short) {state : EntryState} {tail : List UInt8}
    (h : state.reader.rest = field.bytes ++ tail) : ∃ error, readEntryField state = .error error := by
  cases field with
  | key field =>
      rw [EntryField.bytes, TextField.bytes, List.append_assoc] at h
      by_cases htag : field.tag.1.Short
      · obtain ⟨behind, hread, hbehind⟩ := tag_reads htag (by decide) (by decide) h
        obtain ⟨error, herror⟩ := string_refuses (fun hlength => hlong ⟨htag, hlength⟩) behind tail hbehind
        exact ⟨error, by rw [readEntryField_tag hread, herror]; rfl⟩
      · obtain ⟨error, herror⟩ := varint_refuses htag _ _ h
        exact ⟨error, readEntryField_throws herror⟩
  | value field =>
      rw [EntryField.bytes, TextField.bytes, List.append_assoc] at h
      by_cases htag : field.tag.1.Short
      · obtain ⟨behind, hread, hbehind⟩ := tag_reads htag (by decide) (by decide) h
        obtain ⟨error, herror⟩ := string_refuses (fun hlength => hlong ⟨htag, hlength⟩) behind tail hbehind
        exact ⟨error, by rw [readEntryField_tag hread, herror]; rfl⟩
      · obtain ⟨error, herror⟩ := varint_refuses htag _ _ h
        exact ⟨error, readEntryField_throws herror⟩
  | unknown field =>
      rw [EntryField.bytes, UnknownField.bytes, List.append_assoc] at h
      by_cases htag : field.tag.1.Short
      · obtain ⟨behind, hread, hbehind⟩ := tag_reads htag field.number_lt (value_wireType_lt field.value) h
        obtain ⟨error, herror⟩ := skip_refuses (fun hvalue => hlong ⟨htag, hvalue⟩) hbehind
        exact ⟨error, by rw [readEntryField_unknown hread, herror]; rfl⟩
      · obtain ⟨error, herror⟩ := varint_refuses htag _ _ h
        exact ⟨error, readEntryField_throws herror⟩

theorem groupsBytes_ne_nil {groups : List (Fin 128)} (h : groups ≠ []) : groupsBytes groups ≠ [] := by
  match groups, h with
  | [_], _ => exact List.cons_ne_nil _ _
  | _ :: _ :: _, _ => exact List.cons_ne_nil _ _

theorem Varint.length_bytes_pos (varint : Varint) : 0 < varint.bytes.length :=
  List.length_pos_of_ne_nil (groupsBytes_ne_nil varint.groups_ne_nil)

theorem EntryField.length_bytes_pos (field : EntryField) : 0 < field.bytes.length := by
  cases field with
  | key field => exact Nat.lt_of_lt_of_le field.tag.1.length_bytes_pos (by simp [bytes, TextField.bytes])
  | value field => exact Nat.lt_of_lt_of_le field.tag.1.length_bytes_pos (by simp [bytes, TextField.bytes])
  | unknown field => exact Nat.lt_of_lt_of_le field.tag.1.length_bytes_pos (by simp [bytes, UnknownField.bytes])

/-- The reader of an entry stands before these fields. -/
def AtEntryFields (state : EntryState) (fields : List EntryField) : Prop :=
  state.reader.rest = fields.flatMap EntryField.bytes ∧ (fields.flatMap EntryField.bytes).length < 2 ^ 53

theorem flatMap_eq_nil {β : Type} {bytes : β → List UInt8} (hbytes : ∀ part, 0 < (bytes part).length) {parts : List β} :
    parts.flatMap bytes ≠ [] ↔ parts ≠ [] := by
  cases parts with
  | nil => simp
  | cons part rest =>
      have hpart := List.ne_nil_of_length_pos (hbytes part)
      simp [hpart]

theorem sum_weights {β : Type} (bytes : β → List UInt8) (parts : List β) :
    (parts.map fun part => (bytes part).length).sum = (parts.flatMap bytes).length := by
  rw [List.length_flatMap]

section Entry

variable {fuel : Nat} {field : MetadataField}

theorem atEntryFields_ofBytes (hlt : field.payload.length < 2 ^ 53) :
    AtEntryFields ⟨.ofBytes field.payload, "", ""⟩ field.fields :=
  ⟨WireReader.rest_ofBytes _, hlt⟩

theorem going_iff (state : EntryState) (fields : List EntryField) (h : AtEntryFields state fields) :
    state.reader.remaining = true ↔ fields ≠ [] := by
  rw [WireReader.remaining_iff, h.1]
  exact flatMap_eq_nil EntryField.length_bytes_pos

theorem entryField_good (fuel : Nat) (state : EntryState) (part : EntryField) (rest : List EntryField)
    (h : AtEntryFields state (part :: rest)) (hshort : part.Short) (_ : part.bytes.length ≤ fuel) :
    ∃ next, some (readEntryField state) = some (.ok next) ∧ AtEntryFields next rest ∧
      (next.key, next.value) = part.read (state.key, state.value) := by
  obtain ⟨hrest, hlt⟩ := h
  rw [List.flatMap_cons] at hrest
  rw [List.flatMap_cons, List.length_append] at hlt
  obtain ⟨next, hnext, htail, hview⟩ := readEntryField_reads hshort (by omega) hrest
  exact ⟨next, congrArg some hnext, ⟨htail, by omega⟩, hview⟩

theorem readEntry_reads (hshort : ∀ entryField ∈ field.fields, entryField.Short) (hlt : field.payload.length < 2 ^ 53)
    (hfuel : field.payload.length < fuel) :
    ∃ final, readEntry fuel field.payload = some (.ok final) ∧
      (final.key, final.value) = field.fields.foldl EntryField.read ("", "") :=
  runWhile_takes going_iff EntryField.length_bytes_pos entryField_good (atEntryFields_ofBytes hlt)
    (by rw [sum_weights]; exact hfuel) hshort

theorem readEntry_throws (hlong : ¬ ∀ entryField ∈ field.fields, entryField.Short)
    (hlt : field.payload.length < 2 ^ 53) (hfuel : field.payload.length < fuel) :
    ∃ error, readEntry fuel field.payload = some (.error error) := by
  refine runWhile_throws going_iff EntryField.length_bytes_pos entryField_good ?_ (atEntryFields_ofBytes hlt)
    (by rw [sum_weights]; exact hfuel) hlong
  intro fuel state part rest h hpart _
  obtain ⟨hrest, _⟩ := h
  rw [List.flatMap_cons] at hrest
  obtain ⟨error, herror⟩ := readEntryField_refuses hpart hrest
  exact ⟨error, congrArg some herror⟩

end Entry

/-! ## The message -/

/-- What the message loop has read so far. -/
def MessageState.info (state : MessageState) : GrpcErrorInfo := ⟨state.reason, state.domain, state.metadata⟩

def MetadataField.readEntry (field : MetadataField) : String × String := field.fields.foldl EntryField.read ("", "")

/-- What the reader makes of a field of the message. -/
def ErrorInfoField.read (info : GrpcErrorInfo) : ErrorInfoField → GrpcErrorInfo
  | reason field => { info with reason := withoutMark field.text }
  | domain field => { info with domain := withoutMark field.text }
  | metadata field =>
      if 0 < field.readEntry.1.length then
        { info with metadata := assignMetadata info.metadata field.readEntry.1 field.readEntry.2 }
      else info
  | unknown _ => info

section Message

variable {fuel : Nat} {state : MessageState} {reader : WireReader}

theorem readField_throws {error : WireError} (h : state.reader.varint = .error error) :
    readField fuel state = some (.error error) := by
  rw [readField, h]

theorem readField_reason (h : state.reader.varint = .ok (8 * 1 + 2, reader)) :
    readField fuel state = some (reader.string.map fun (reason, reader) => { state with reader, reason }) := by
  rw [readField, h]
  rfl

theorem readField_domain (h : state.reader.varint = .ok (8 * 2 + 2, reader)) :
    readField fuel state = some (reader.string.map fun (domain, reader) => { state with reader, domain }) := by
  rw [readField, h]
  rfl

theorem readField_metadata (h : state.reader.varint = .ok (8 * 3 + 2, reader)) :
    readField fuel state = addMetadata fuel state reader.rawBytes := by
  rw [readField, h]
  rfl

theorem readField_unknown {field : UnknownField [1, 2, 3]}
    (h : state.reader.varint = .ok (8 * field.number + field.value.wireType, reader)) :
    readField fuel state = some ((reader.skip field.value.wireType).map fun reader => { state with reader }) := by
  obtain ⟨hnumber, htype⟩ := tag_parts field.number (value_wireType_lt field.value)
  have hunknown : ∀ number ∈ [1, 2, 3], ¬ (field.number = number ∧ field.value.wireType = 2) := by
    rintro number hmem ⟨rfl, htwo⟩
    exact field.unknown htwo hmem
  rw [readField, h]
  dsimp only
  rw [hnumber, htype, if_neg (hunknown 1 (by decide)), if_neg (hunknown 2 (by decide)),
    if_neg (hunknown 3 (by decide))]

theorem readField_reads {field : ErrorInfoField} (hshort : field.Short) (hlt : field.bytes.length < 2 ^ 53)
    (hfuel : field.bytes.length ≤ fuel) {tail : List UInt8} (h : state.reader.rest = field.bytes ++ tail) :
    ∃ next, readField fuel state = some (.ok next) ∧ next.reader.rest = tail ∧ next.info = field.read state.info := by
  cases field with
  | reason field =>
      rw [ErrorInfoField.bytes, TextField.bytes, List.append_assoc] at h
      rw [ErrorInfoField.bytes, TextField.bytes, List.length_append, List.length_append] at hlt
      obtain ⟨behind, htag, hbehind⟩ := tag_reads hshort.1 (by decide) (by decide) h
      obtain ⟨next, hread, hrest⟩ := string_reads hshort.2 (by omega) behind tail hbehind
      exact ⟨{ state with reader := next, reason := withoutMark field.text },
        by rw [readField_reason htag, hread]; rfl, hrest, rfl⟩
  | domain field =>
      rw [ErrorInfoField.bytes, TextField.bytes, List.append_assoc] at h
      rw [ErrorInfoField.bytes, TextField.bytes, List.length_append, List.length_append] at hlt
      obtain ⟨behind, htag, hbehind⟩ := tag_reads hshort.1 (by decide) (by decide) h
      obtain ⟨next, hread, hrest⟩ := string_reads hshort.2 (by omega) behind tail hbehind
      exact ⟨{ state with reader := next, domain := withoutMark field.text },
        by rw [readField_domain htag, hread]; rfl, hrest, rfl⟩
  | metadata field =>
      rw [ErrorInfoField.bytes, MetadataField.bytes, List.append_assoc] at h
      rw [ErrorInfoField.bytes, MetadataField.bytes, List.length_append, List.length_append] at hlt hfuel
      have htagBytes := field.tag.1.length_bytes_pos
      obtain ⟨behind, htag, hbehind⟩ := tag_reads hshort.1 (by decide) (by decide) h
      obtain ⟨next, hread, hrest⟩ : ∃ next, behind.rawBytes = .ok (field.payload, next) ∧ next.rest = tail :=
        rawBytes_reads hshort.2.1 (show field.payload.length < 2 ^ 53 by omega) behind tail hbehind
      obtain ⟨entry, hentry, hview⟩ := readEntry_reads hshort.2.2 (show field.payload.length < 2 ^ 53 by omega)
        (show field.payload.length < fuel by omega)
      have hparts : entry.key = field.readEntry.1 ∧ entry.value = field.readEntry.2 := Prod.ext_iff.mp hview
      rw [readField_metadata htag, hread, addMetadata, hentry, Option.map_some, addEntry, ErrorInfoField.read, hparts.1, hparts.2]
      split
      · exact ⟨_, rfl, hrest, rfl⟩
      · exact ⟨_, rfl, hrest, rfl⟩
  | unknown field =>
      rw [ErrorInfoField.bytes, UnknownField.bytes, List.append_assoc] at h
      rw [ErrorInfoField.bytes, UnknownField.bytes, List.length_append] at hlt
      obtain ⟨behind, htag, hbehind⟩ := tag_reads hshort.1 field.number_lt (value_wireType_lt field.value) h
      obtain ⟨next, hread, hrest⟩ := skip_reads hshort.2 (by omega) hbehind
      exact ⟨{ state with reader := next }, by rw [readField_unknown htag, hread]; rfl, hrest, rfl⟩

theorem readField_refuses {field : ErrorInfoField} (hlong : ¬ field.Short) (hlt : field.bytes.length < 2 ^ 53)
    (hfuel : field.bytes.length ≤ fuel) {tail : List UInt8} (h : state.reader.rest = field.bytes ++ tail) :
    ∃ error, readField fuel state = some (.error error) := by
  cases field with
  | reason field =>
      rw [ErrorInfoField.bytes, TextField.bytes, List.append_assoc] at h
      by_cases htag : field.tag.1.Short
      · obtain ⟨behind, hread, hbehind⟩ := tag_reads htag (by decide) (by decide) h
        obtain ⟨error, herror⟩ := string_refuses (fun hlength => hlong ⟨htag, hlength⟩) behind tail hbehind
        exact ⟨error, by rw [readField_reason hread, herror]; rfl⟩
      · obtain ⟨error, herror⟩ := varint_refuses htag _ _ h
        exact ⟨error, readField_throws herror⟩
  | domain field =>
      rw [ErrorInfoField.bytes, TextField.bytes, List.append_assoc] at h
      by_cases htag : field.tag.1.Short
      · obtain ⟨behind, hread, hbehind⟩ := tag_reads htag (by decide) (by decide) h
        obtain ⟨error, herror⟩ := string_refuses (fun hlength => hlong ⟨htag, hlength⟩) behind tail hbehind
        exact ⟨error, by rw [readField_domain hread, herror]; rfl⟩
      · obtain ⟨error, herror⟩ := varint_refuses htag _ _ h
        exact ⟨error, readField_throws herror⟩
  | metadata field =>
      rw [ErrorInfoField.bytes, MetadataField.bytes, List.append_assoc] at h
      rw [ErrorInfoField.bytes, MetadataField.bytes, List.length_append, List.length_append] at hlt hfuel
      have htagBytes := field.tag.1.length_bytes_pos
      by_cases htag : field.tag.1.Short
      · obtain ⟨behind, hread, hbehind⟩ := tag_reads htag (by decide) (by decide) h
        by_cases hlength : field.length.1.Short
        · obtain ⟨next, hbytes, _⟩ : ∃ next, behind.rawBytes = .ok (field.payload, next) ∧ next.rest = tail :=
            rawBytes_reads hlength (show field.payload.length < 2 ^ 53 by omega) behind tail hbehind
          obtain ⟨error, herror⟩ := readEntry_throws (fun hfields => hlong ⟨htag, hlength, hfields⟩)
            (show field.payload.length < 2 ^ 53 by omega) (show field.payload.length < fuel by omega)
          exact ⟨error, by rw [readField_metadata hread, hbytes, addMetadata, herror]; rfl⟩
        · obtain ⟨error, herror⟩ := rawBytes_refuses hlength behind tail hbehind
          exact ⟨error, by rw [readField_metadata hread, herror]; rfl⟩
      · obtain ⟨error, herror⟩ := varint_refuses htag _ _ h
        exact ⟨error, readField_throws herror⟩
  | unknown field =>
      rw [ErrorInfoField.bytes, UnknownField.bytes, List.append_assoc] at h
      by_cases htag : field.tag.1.Short
      · obtain ⟨behind, hread, hbehind⟩ := tag_reads htag field.number_lt (value_wireType_lt field.value) h
        obtain ⟨error, herror⟩ := skip_refuses (fun hvalue => hlong ⟨htag, hvalue⟩) hbehind
        exact ⟨error, by rw [readField_unknown hread, herror]; rfl⟩
      · obtain ⟨error, herror⟩ := varint_refuses htag _ _ h
        exact ⟨error, readField_throws herror⟩

end Message

end CantonSdk.Transports
