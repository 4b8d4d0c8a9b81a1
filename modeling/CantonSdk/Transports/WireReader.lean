import CantonSdk.Base.Checked
import CantonSdk.Base.KeyedMap
import CantonSdk.Base.Loop
import Mathlib.Tactic.SplitIfs

/-!
# Error details off the wire

`readErrorInfo` reads a `google.rpc.ErrorInfo` message from its bytes: two nested loops over tagged fields, an offset
that moves behind what has been read, and an error for whatever does not fit. A reader carries the fact that its
offset is inside the bytes.
-/

set_option linter.all false

namespace CantonSdk.Transports

open CantonSdk.Base

inductive WireError
  | truncatedVarint | varintTooLong | truncatedBytes | truncatedField | unsupportedWireType (wireType : Nat) | invalidText
  deriving DecidableEq

/-- `wireReader(bytes)`. -/
structure WireReader where
  bytes : List UInt8
  offset : Nat
  inside : offset ≤ bytes.length

/-- The double that is closest to a natural number below 2^57, the even one of two. -/
def roundToDouble (n : Nat) : Nat :=
  if n < 2 ^ 53 then n
  else
    let unit := 2 ^ (n.log2 - 52)
    let below := n / unit
    if 2 * (n % unit) < unit ∨ 2 * (n % unit) = unit ∧ below % 2 = 0 then below * unit else (below + 1) * unit

/-- Text without the byte order mark that it may begin with. -/
def withoutMark (text : String) : String :=
  match text.toList with
  | '\uFEFF' :: rest => String.ofList rest
  | _ => text

/-- `TextDecoder` in its fatal mode, which drops a byte order mark. -/
def decodeText (bytes : List UInt8) : Except WireError String :=
  match String.fromUTF8? ⟨bytes.toArray⟩ with
  | none => .error .invalidText
  | some text => .ok (withoutMark text)

namespace WireReader

def ofBytes (bytes : List UInt8) : WireReader := ⟨bytes, 0, Nat.zero_le _⟩

def remaining (reader : WireReader) : Bool := decide (reader.offset < reader.bytes.length)

/-- `result += (byte & 0x7f) * shift`. -/
def addGroup (result shift : Nat) (byte : UInt8) : Nat := roundToDouble (result + byte.toNat % 128 * shift)

/-- The turns of the loop of `varint` that are left. -/
def varintFrom : Nat → Nat → Nat → WireReader → Except WireError (Nat × WireReader)
  | 0, _, _, _ => .error .varintTooLong
  | left + 1, result, shift, reader =>
      if h : reader.offset < reader.bytes.length then
        if reader.bytes[reader.offset].toNat < 128 then
          .ok (addGroup result shift reader.bytes[reader.offset], ⟨reader.bytes, reader.offset + 1, h⟩)
        else
          varintFrom left (addGroup result shift reader.bytes[reader.offset]) (shift * 128)
            ⟨reader.bytes, reader.offset + 1, h⟩
      else .error .truncatedVarint

def varint (reader : WireReader) : Except WireError (Nat × WireReader) := varintFrom 8 0 1 reader

def rawBytes (reader : WireReader) : Except WireError (List UInt8 × WireReader) := do
  let (length, reader) ← reader.varint
  if h : reader.offset + length ≤ reader.bytes.length then
    return ((reader.bytes.drop reader.offset).take length, ⟨reader.bytes, reader.offset + length, h⟩)
  else throw .truncatedBytes

def string (reader : WireReader) : Except WireError (String × WireReader) := do
  let (bytes, reader) ← reader.rawBytes
  return (← decodeText bytes, reader)

/-- `offset += count`, with the check behind it. -/
def advance (reader : WireReader) (count : Nat) : Except WireError WireReader :=
  if h : reader.offset + count ≤ reader.bytes.length then .ok ⟨reader.bytes, reader.offset + count, h⟩
  else .error .truncatedField

def skip (reader : WireReader) (wireType : Nat) : Except WireError WireReader :=
  if wireType = 0 then reader.varint.map Prod.snd
  else if wireType = 1 then reader.advance 8
  else if wireType = 2 then reader.rawBytes.map Prod.snd
  else if wireType = 5 then reader.advance 4
  else .error (.unsupportedWireType wireType)

end WireReader

/-- `GrpcErrorInfo`. -/
structure GrpcErrorInfo where
  reason : String
  domain : String
  metadata : KeyedMap String String

/-- The local variables of the loop over an entry of the metadata. -/
structure EntryState where
  reader : WireReader
  key : String
  value : String

def readEntryField (state : EntryState) : Except WireError EntryState := do
  let (entryTag, reader) ← state.reader.varint
  if entryTag / 8 = 1 ∧ entryTag % 8 = 2 then
    let (key, reader) ← reader.string
    return { state with reader, key }
  else if entryTag / 8 = 2 ∧ entryTag % 8 = 2 then
    let (value, reader) ← reader.string
    return { state with reader, value }
  else
    let reader ← reader.skip (entryTag % 8)
    return { state with reader }

def readEntry (fuel : Nat) (bytes : List UInt8) : Option (Except WireError EntryState) :=
  runWhile (fun state : EntryState => state.reader.remaining) (fun _ state => some (readEntryField state)) fuel
    ⟨.ofBytes bytes, "", ""⟩

/-- `metadata[key] = value` on a plain object, where `__proto__` takes no text. -/
def assignMetadata (metadata : KeyedMap String String) (key value : String) : KeyedMap String String :=
  if key = "__proto__" then metadata else metadata.set key value

/-- The local variables of the loop over the message. -/
structure MessageState where
  reader : WireReader
  reason : String
  domain : String
  metadata : KeyedMap String String

/-- What the entry's bytes add to the metadata, once its loop has ended. -/
def addEntry (state : MessageState) (reader : WireReader) :
    Except WireError EntryState → Except WireError MessageState
  | .error error => .error error
  | .ok entry =>
      if 0 < entry.key.length then
        .ok { state with reader, metadata := assignMetadata state.metadata entry.key entry.value }
      else .ok { state with reader }

def addMetadata (fuel : Nat) (state : MessageState) :
    Except WireError (List UInt8 × WireReader) → Option (Except WireError MessageState)
  | .error error => some (.error error)
  | .ok (bytes, reader) => (readEntry fuel bytes).map (addEntry state reader)

def readField (fuel : Nat) (state : MessageState) : Option (Except WireError MessageState) :=
  match state.reader.varint with
  | .error error => some (.error error)
  | .ok (tag, reader) =>
      if tag / 8 = 1 ∧ tag % 8 = 2 then
        some (reader.string.map fun (reason, reader) => { state with reader, reason })
      else if tag / 8 = 2 ∧ tag % 8 = 2 then
        some (reader.string.map fun (domain, reader) => { state with reader, domain })
      else if tag / 8 = 3 ∧ tag % 8 = 2 then addMetadata fuel state reader.rawBytes
      else some ((reader.skip (tag % 8)).map fun reader => { state with reader })

def readFields (fuel : Nat) (state : MessageState) : Option (Except WireError MessageState) :=
  runWhile (fun state : MessageState => state.reader.remaining) readField fuel state

/-- What is returned at the end of the message; every error gives `undefined`. -/
def finish : Except WireError MessageState → Option GrpcErrorInfo
  | .error _ => none
  | .ok state => if state.reason.length = 0 then none else some ⟨state.reason, state.domain, state.metadata⟩

/-- `readErrorInfo`, if the fuel suffices. -/
def readErrorInfo (fuel : Nat) (bytes : List UInt8) : Option (Option GrpcErrorInfo) :=
  (readFields fuel ⟨.ofBytes bytes, "", "", .empty⟩).map finish

/-! ## Every reader moves forward -/

namespace WireReader

/-- The reader has moved behind something of the same bytes. -/
def Advances (reader next : WireReader) : Prop := next.bytes = reader.bytes ∧ reader.offset < next.offset

variable {reader next : WireReader}

theorem Advances.trans {last : WireReader} (h : reader.Advances next) (h' : next.Advances last) : reader.Advances last :=
  ⟨h'.1.trans h.1, Nat.lt_trans h.2 h'.2⟩

/-- The bytes that are left. -/
def left (reader : WireReader) : Nat := reader.bytes.length - reader.offset

theorem Advances.left_lt (h : reader.Advances next) : next.left < reader.left := by
  obtain ⟨hbytes, hoffset⟩ := h
  have hinside := next.inside
  rw [hbytes] at hinside
  rw [left, left, hbytes]
  omega

theorem varintFrom_advances {turns result shift value : Nat}
    (h : varintFrom turns result shift reader = .ok (value, next)) : reader.Advances next := by
  induction turns generalizing result shift reader with
  | zero => cases h
  | succ turns ih =>
      rw [varintFrom] at h
      split_ifs at h with hinside hlast
      · cases h
        exact ⟨rfl, Nat.lt_succ_self _⟩
      · have hnext := ih h
        exact ⟨hnext.1, Nat.lt_trans (Nat.lt_succ_self _) hnext.2⟩

theorem varint_advances {value : Nat} (h : reader.varint = .ok (value, next)) : reader.Advances next :=
  varintFrom_advances h

theorem rawBytes_advances {bytes : List UInt8} (h : reader.rawBytes = .ok (bytes, next)) :
    reader.Advances next ∧ bytes.length < reader.left := by
  obtain ⟨⟨length, behind⟩, hvarint, h⟩ := bind_eq_ok.mp h
  have hbehind := varint_advances hvarint
  dsimp only at h
  split_ifs at h with hinside
  cases h
  refine ⟨⟨hbehind.1, Nat.lt_of_lt_of_le hbehind.2 (Nat.le_add_right _ _)⟩, ?_⟩
  rw [List.length_take, List.length_drop]
  exact Nat.lt_of_le_of_lt (Nat.min_le_right _ _) hbehind.left_lt

theorem string_advances {text : String} (h : reader.string = .ok (text, next)) : reader.Advances next := by
  obtain ⟨⟨bytes, behind⟩, hbytes, h⟩ := bind_eq_ok.mp h
  obtain ⟨_, _, h⟩ := bind_eq_ok.mp h
  cases h
  exact (rawBytes_advances hbytes).1

theorem advance_advances {count : Nat} (hcount : 0 < count) (h : reader.advance count = .ok next) :
    reader.Advances next := by
  rw [advance] at h
  split_ifs at h with hinside
  cases h
  exact ⟨rfl, Nat.lt_add_of_pos_right hcount⟩

theorem skip_advances {wireType : Nat} (h : reader.skip wireType = .ok next) : reader.Advances next := by
  have hsnd : ∀ {α : Type} {read : Except WireError (α × WireReader)}, read.map Prod.snd = .ok next →
      ∃ a, read = .ok (a, next) := by
    intro α read hread
    cases read with
    | error error => cases hread
    | ok result => exact ⟨result.1, congrArg Except.ok (Prod.ext rfl (Except.ok.inj hread))⟩
  rw [skip] at h
  split_ifs at h
  · obtain ⟨_, hread⟩ := hsnd h
    exact varint_advances hread
  · exact advance_advances (by omega) h
  · obtain ⟨_, hread⟩ := hsnd h
    exact (rawBytes_advances hread).1
  · exact advance_advances (by omega) h

theorem left_pos (h : reader.remaining = true) : 0 < reader.left := by
  have hinside := of_decide_eq_true h
  rw [left]
  omega

end WireReader

/-! ## Reading ends -/

theorem readEntryField_advances {state next : EntryState} (h : readEntryField state = .ok next) :
    state.reader.Advances next.reader := by
  obtain ⟨⟨tag, behind⟩, htag, h⟩ := bind_eq_ok.mp h
  have hbehind := WireReader.varint_advances htag
  dsimp only at h
  split_ifs at h
  · obtain ⟨⟨key, last⟩, hkey, h⟩ := bind_eq_ok.mp h
    cases h
    exact hbehind.trans (WireReader.string_advances hkey)
  · obtain ⟨⟨value, last⟩, hvalue, h⟩ := bind_eq_ok.mp h
    cases h
    exact hbehind.trans (WireReader.string_advances hvalue)
  · obtain ⟨last, hlast, h⟩ := bind_eq_ok.mp h
    cases h
    exact hbehind.trans (WireReader.skip_advances hlast)

theorem readEntry_ends {fuel : Nat} {bytes : List UInt8} (hfuel : bytes.length < fuel) :
    ∃ result, readEntry fuel bytes = some result := by
  have hbody : ∀ (fuel : Nat) (state : EntryState), True → state.reader.remaining = true → state.reader.left ≤ fuel →
      ∃ result, some (readEntryField state) = some result ∧
        ∀ next, result = .ok next → True ∧ next.reader.left < state.reader.left :=
    fun _ state _ _ _ => ⟨readEntryField state, rfl, fun _ hnext =>
      ⟨trivial, (readEntryField_advances hnext).left_lt⟩⟩
  obtain ⟨result, hresult, _⟩ := runWhile_ends _ _ hbody fuel ⟨.ofBytes bytes, "", ""⟩ trivial hfuel
  exact ⟨result, hresult⟩

theorem map_eq_ok {α β : Type} {read : Except WireError α} {f : α → β} {b : β} (h : read.map f = .ok b) :
    ∃ a, read = .ok a ∧ f a = b := by
  cases read with
  | error error => cases h
  | ok a => exact ⟨a, rfl, Except.ok.inj h⟩

theorem addEntry_reader {state next : MessageState} {reader : WireReader} {entry : Except WireError EntryState}
    (h : addEntry state reader entry = .ok next) : next.reader = reader := by
  cases entry with
  | error error => cases h
  | ok entry =>
      rw [addEntry] at h
      split_ifs at h <;> cases h <;> rfl

theorem readField_ends {fuel : Nat} {state : MessageState} (hfuel : state.reader.left ≤ fuel) :
    ∃ result, readField fuel state = some result ∧
      ∀ next, result = .ok next → state.reader.Advances next.reader := by
  cases htag : state.reader.varint with
  | error error => exact ⟨.error error, by rw [readField, htag], nofun⟩
  | ok read =>
      obtain ⟨tag, behind⟩ := read
      have hbehind := WireReader.varint_advances htag
      rw [readField, htag]
      dsimp only
      split_ifs
      · refine ⟨_, rfl, fun next hnext => ?_⟩
        obtain ⟨⟨text, last⟩, htext, rfl⟩ := map_eq_ok hnext
        exact hbehind.trans (WireReader.string_advances htext)
      · refine ⟨_, rfl, fun next hnext => ?_⟩
        obtain ⟨⟨text, last⟩, htext, rfl⟩ := map_eq_ok hnext
        exact hbehind.trans (WireReader.string_advances htext)
      · cases hbytes : behind.rawBytes with
        | error error => exact ⟨.error error, rfl, nofun⟩
        | ok read =>
            obtain ⟨bytes, last⟩ := read
            obtain ⟨hlast, hlength⟩ := WireReader.rawBytes_advances hbytes
            have hless := hbehind.left_lt
            obtain ⟨entry, hentry⟩ := readEntry_ends (show bytes.length < fuel by omega)
            refine ⟨addEntry state last entry, by rw [addMetadata, hentry]; rfl, fun next hnext => ?_⟩
            rw [addEntry_reader hnext]
            exact hbehind.trans hlast
      · refine ⟨_, rfl, fun next hnext => ?_⟩
        obtain ⟨last, hlast, rfl⟩ := map_eq_ok hnext
        exact hbehind.trans (WireReader.skip_advances hlast)

/-- Whatever the bytes, the loops end after as many turns as there are bytes, and a message that is read to its end has
been read up to the last byte and not further. -/
theorem readFields_ends {fuel : Nat} {bytes : List UInt8} (hfuel : bytes.length < fuel) :
    ∃ result, readFields fuel ⟨.ofBytes bytes, "", "", .empty⟩ = some result ∧
      ∀ final, result = .ok final → final.reader.bytes = bytes ∧ final.reader.offset = bytes.length := by
  have hbody : ∀ (fuel : Nat) (state : MessageState), state.reader.bytes = bytes → state.reader.remaining = true →
      state.reader.left ≤ fuel → ∃ result, readField fuel state = some result ∧
        ∀ next, result = .ok next → next.reader.bytes = bytes ∧ next.reader.left < state.reader.left := by
    intro fuel state hinv _ hfuel
    obtain ⟨result, hresult, hnext⟩ := readField_ends hfuel
    exact ⟨result, hresult, fun next hok => ⟨(hnext next hok).1.trans hinv, (hnext next hok).left_lt⟩⟩
  obtain ⟨result, hresult, hfinal⟩ := runWhile_ends _ _ hbody fuel ⟨.ofBytes bytes, "", "", .empty⟩ rfl hfuel
  refine ⟨result, hresult, fun final hok => ?_⟩
  obtain ⟨hbytes, hstopped⟩ := hfinal final hok
  refine ⟨hbytes, ?_⟩
  have hinside := final.reader.inside
  have hend := of_decide_eq_false hstopped
  rw [hbytes] at hinside hend
  omega

end CantonSdk.Transports
