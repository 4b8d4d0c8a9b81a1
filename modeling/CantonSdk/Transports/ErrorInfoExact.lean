import CantonSdk.Transports.ErrorInfoReading
import Mathlib.Algebra.Order.BigOperators.Group.List

/-!
# When error details are read exactly

The reader ends on any bytes. From an encoding of error details it returns what was encoded if and only if no integer
takes nine or ten bytes, no metadata key is `__proto__`, and no text begins with a byte order mark.
-/

set_option linter.all false

namespace CantonSdk.Transports

open CantonSdk.Base

/-! ## Enough fuel -/

theorem readEntry_succ {fuel : Nat} {bytes : List UInt8} {result : Except WireError EntryState}
    (h : readEntry fuel bytes = some result) : readEntry (fuel + 1) bytes = some result := by
  refine runWhile_mono ?_ h
  exact fun _ _ _ hbody => hbody

theorem addMetadata_succ {fuel : Nat} {state : MessageState} {read : Except WireError (List UInt8 × WireReader)}
    {result : Except WireError MessageState} (h : addMetadata fuel state read = some result) :
    addMetadata (fuel + 1) state read = some result := by
  cases read with
  | error error => exact h
  | ok read =>
      obtain ⟨entry, hentry, hresult⟩ := Option.map_eq_some_iff.mp h
      exact Option.map_eq_some_iff.mpr ⟨entry, readEntry_succ hentry, hresult⟩

theorem readField_succ (fuel : Nat) (state : MessageState) (result : Except WireError MessageState)
    (h : readField fuel state = some result) : readField (fuel + 1) state = some result := by
  rw [readField] at h ⊢
  split at h
  · exact h
  · dsimp only
    split_ifs at h ⊢
    · exact h
    · exact h
    · exact addMetadata_succ h
    · exact h

theorem readFields_of_le {fuel more : Nat} {state : MessageState} {result : Except WireError MessageState}
    (hle : fuel ≤ more) (h : readFields fuel state = some result) : readFields more state = some result := by
  induction more, hle using Nat.le_induction with
  | base => exact h
  | succ more _ ih => exact runWhile_mono readField_succ ih

/-- Whatever the bytes, the reader returns, and more fuel changes nothing. -/
theorem readErrorInfo_ends (bytes : List UInt8) :
    ∃ result, ∀ fuel, bytes.length < fuel → readErrorInfo fuel bytes = some result := by
  obtain ⟨result, hresult, _⟩ := readFields_ends (Nat.lt_succ_self bytes.length)
  refine ⟨finish result, fun fuel hfuel => ?_⟩
  rw [readErrorInfo, readFields_of_le hfuel hresult]
  rfl

/-! ## The message that is read -/

namespace ErrorInfoEncoding

variable {encoding : ErrorInfoEncoding} {fuel : Nat}

/-- What the reader makes of the fields. -/
def readInfo (encoding : ErrorInfoEncoding) : GrpcErrorInfo :=
  encoding.fields.foldl ErrorInfoField.read ⟨"", "", .empty⟩

theorem length_bytes_pos (field : ErrorInfoField) : 0 < field.bytes.length := by
  cases field with
  | reason field => exact Nat.lt_of_lt_of_le field.tag.1.length_bytes_pos (by simp [ErrorInfoField.bytes, TextField.bytes])
  | domain field => exact Nat.lt_of_lt_of_le field.tag.1.length_bytes_pos (by simp [ErrorInfoField.bytes, TextField.bytes])
  | metadata field =>
      exact Nat.lt_of_lt_of_le field.tag.1.length_bytes_pos (by simp [ErrorInfoField.bytes, MetadataField.bytes])
  | unknown field =>
      exact Nat.lt_of_lt_of_le field.tag.1.length_bytes_pos (by simp [ErrorInfoField.bytes, UnknownField.bytes])

/-- The reader of the message stands before these fields. -/
def AtFields (state : MessageState) (fields : List ErrorInfoField) : Prop :=
  state.reader.rest = fields.flatMap ErrorInfoField.bytes ∧ (fields.flatMap ErrorInfoField.bytes).length < 2 ^ 53

theorem going_iff (state : MessageState) (fields : List ErrorInfoField) (h : AtFields state fields) :
    state.reader.remaining = true ↔ fields ≠ [] := by
  rw [WireReader.remaining_iff, h.1]
  exact flatMap_eq_nil length_bytes_pos

theorem field_good (fuel : Nat) (state : MessageState) (part : ErrorInfoField) (rest : List ErrorInfoField)
    (h : AtFields state (part :: rest)) (hshort : part.Short) (hfuel : part.bytes.length ≤ fuel) :
    ∃ next, readField fuel state = some (.ok next) ∧ AtFields next rest ∧ next.info = part.read state.info := by
  obtain ⟨hrest, hlt⟩ := h
  rw [List.flatMap_cons] at hrest
  rw [List.flatMap_cons, List.length_append] at hlt
  obtain ⟨next, hnext, htail, hview⟩ := readField_reads hshort (by omega) hfuel hrest
  exact ⟨next, hnext, ⟨htail, by omega⟩, hview⟩

theorem readErrorInfo_short (hshort : encoding.Short) (hfuel : encoding.bytes.length < fuel) :
    readErrorInfo fuel encoding.bytes
      = some (if encoding.readInfo.reason.length = 0 then none else some encoding.readInfo) := by
  have hat : AtFields ⟨.ofBytes encoding.bytes, "", "", .empty⟩ encoding.fields :=
    ⟨WireReader.rest_ofBytes _, encoding.length_lt⟩
  obtain ⟨final, hfinal, hview⟩ := runWhile_takes going_iff length_bytes_pos field_good hat
    (by rw [sum_weights]; exact hfuel) hshort
  have hinfo : final.info = encoding.readInfo := hview
  rw [readErrorInfo, readFields, hfinal, ← hinfo]
  rfl

theorem readErrorInfo_long (hlong : ¬ encoding.Short) (hfuel : encoding.bytes.length < fuel) :
    readErrorInfo fuel encoding.bytes = some none := by
  have hat : AtFields ⟨.ofBytes encoding.bytes, "", "", .empty⟩ encoding.fields :=
    ⟨WireReader.rest_ofBytes _, encoding.length_lt⟩
  obtain ⟨error, herror⟩ := runWhile_throws going_iff length_bytes_pos field_good
    (fun fuel state part rest h hpart hfuel => by
      obtain ⟨hrest, hlt⟩ := h
      rw [List.flatMap_cons] at hrest
      rw [List.flatMap_cons, List.length_append] at hlt
      exact readField_refuses hpart (by omega) hfuel hrest)
    hat (by rw [sum_weights]; exact hfuel) hlong
  rw [readErrorInfo, readFields, herror]
  rfl

end ErrorInfoEncoding

/-! ## What is encoded and what is read -/

/-- Text that a decoder leaves as it is. -/
def Unmarked (text : String) : Prop := text.toList.head? ≠ some '\uFEFF'

theorem withoutMark_eq_self {text : String} : withoutMark text = text ↔ Unmarked text := by
  rw [withoutMark, Unmarked]
  split
  · rename_i rest htext
    refine iff_of_false (fun h => ?_) (by simp [htext])
    have hlength := congrArg String.toList h
    rw [String.toList_ofList, htext] at hlength
    exact absurd (congrArg List.length hlength) (by simp)
  · rename_i hother
    refine iff_of_true rfl fun h => ?_
    obtain ⟨rest, htext⟩ := List.head?_eq_some_iff.mp h
    exact hother rest htext

/-- The text that was marked, if it was. -/
theorem withoutMark_of_marked {text : String} (h : ¬ Unmarked text) :
    text.toList = '\uFEFF' :: (withoutMark text).toList := by
  obtain ⟨rest, htext⟩ := List.head?_eq_some_iff.mp (not_not.mp h)
  have hrest : withoutMark text = String.ofList rest := by
    rw [withoutMark, htext]
    rfl
  rw [hrest, htext, String.toList_ofList]

/-- The entries of the metadata, in the order of their fields. -/
def metadataEntries (fields : List ErrorInfoField) : List (String × String) :=
  fields.filterMap fun
    | .metadata field => some field.entry
    | _ => none

theorem foldl_apply (fields : List ErrorInfoField) (info : GrpcErrorInfo) :
    (fields.foldl ErrorInfoField.apply info).metadata
      = (metadataEntries fields).foldl (fun metadata entry => metadata.set entry.1 entry.2) info.metadata := by
  induction fields generalizing info with
  | nil => rfl
  | cons field rest ih =>
      rw [List.foldl_cons, ih]
      cases field <;> rfl

/-- What the reader adds to the metadata for an entry. -/
def readMetadata (metadata : KeyedMap String String) (entry : String × String) : KeyedMap String String :=
  if 0 < (withoutMark entry.1).length then assignMetadata metadata (withoutMark entry.1) (withoutMark entry.2)
  else metadata

theorem readEntry_eq (field : MetadataField) :
    field.readEntry = (withoutMark field.entry.1, withoutMark field.entry.2) := by
  have hfold : ∀ (fields : List EntryField) (entry : String × String),
      fields.foldl EntryField.read (withoutMark entry.1, withoutMark entry.2)
        = (withoutMark (fields.foldl EntryField.apply entry).1, withoutMark (fields.foldl EntryField.apply entry).2) := by
    intro fields
    induction fields with
    | nil => exact fun entry => rfl
    | cons first rest ih =>
        intro entry
        rw [List.foldl_cons, List.foldl_cons, ← ih]
        cases first <;> rfl
  exact hfold field.fields ("", "")

theorem foldl_read (fields : List ErrorInfoField) (info info' : GrpcErrorInfo)
    (hreason : info'.reason = withoutMark info.reason) (hdomain : info'.domain = withoutMark info.domain) :
    let applied := fields.foldl ErrorInfoField.apply info
    let read := fields.foldl ErrorInfoField.read info'
    read.reason = withoutMark applied.reason ∧ read.domain = withoutMark applied.domain ∧
      read.metadata = (metadataEntries fields).foldl readMetadata info'.metadata := by
  induction fields generalizing info info' with
  | nil => exact ⟨hreason, hdomain, rfl⟩
  | cons field rest ih =>
      cases field with
      | reason field => exact ih _ _ rfl hdomain
      | domain field => exact ih _ _ hreason rfl
      | metadata field =>
          have hread : (ErrorInfoField.read info' (.metadata field)).metadata = readMetadata info'.metadata field.entry := by
            rw [ErrorInfoField.read, readEntry_eq, readMetadata]
            split <;> rfl
          have hkept : (ErrorInfoField.read info' (.metadata field)).reason = info'.reason ∧
              (ErrorInfoField.read info' (.metadata field)).domain = info'.domain := by
            rw [ErrorInfoField.read]
            split <;> exact ⟨rfl, rfl⟩
          obtain ⟨hreasons, hdomains, hmetadata⟩ := ih (ErrorInfoField.apply info (.metadata field))
            (ErrorInfoField.read info' (.metadata field)) (hkept.1.trans hreason) (hkept.2.trans hdomain)
          exact ⟨hreasons, hdomains, hmetadata.trans (by rw [hread]; rfl)⟩
      | unknown field => exact ih _ _ hreason hdomain

section Metadata

variable {entries : List (String × String)}

/-- A key that was read is the key of an entry, perhaps without its mark, and not `__proto__`. -/
theorem exists_of_readMetadata {metadata : KeyedMap String String} {key value : String}
    (h : (entries.foldl readMetadata metadata).get key = some value) :
    metadata.get key = some value ∨ key ≠ "__proto__" ∧ ∃ entry ∈ entries, withoutMark entry.1 = key := by
  induction entries generalizing metadata with
  | nil => exact .inl h
  | cons entry rest ih =>
      rcases ih h with hfirst | ⟨hkey, other, hother, heq⟩
      · rw [readMetadata, assignMetadata] at hfirst
        split_ifs at hfirst with hempty hproto
        · exact .inl hfirst
        · rw [KeyedMap.get_set] at hfirst
          by_cases heq : key = withoutMark entry.1
          · exact .inr ⟨heq ▸ hproto, entry, List.mem_cons_self, heq.symm⟩
          · rw [if_neg heq] at hfirst
            exact .inl hfirst
        · exact .inl hfirst
      · exact .inr ⟨hkey, other, List.mem_cons_of_mem _ hother, heq⟩

/-- Plain keys are read as they are, and their values without a mark. -/
theorem get_readMetadata (hplain : ∀ entry ∈ entries, entry.1 ≠ "" ∧ entry.1 ≠ "__proto__" ∧ Unmarked entry.1)
    {metadata read : KeyedMap String String} (h : ∀ key, read.get key = (metadata.get key).map withoutMark)
    (key : String) :
    (entries.foldl readMetadata read).get key
      = ((entries.foldl (fun metadata entry => metadata.set entry.1 entry.2) metadata).get key).map withoutMark := by
  induction entries generalizing metadata read with
  | nil => exact h key
  | cons entry rest ih =>
      obtain ⟨⟨hempty, hproto, hunmarked⟩, hrest⟩ := List.forall_mem_cons.mp hplain
      refine ih hrest fun other => ?_
      have hlength : 0 < entry.1.length := Nat.pos_of_ne_zero fun hzero => hempty (String.length_eq_zero_iff.mp hzero)
      rw [readMetadata, withoutMark_eq_self.mpr hunmarked, if_pos hlength, assignMetadata, if_neg hproto,
        KeyedMap.get_set, KeyedMap.get_set]
      split
      · rfl
      · exact h other

/-- If a key were marked, a longer one would have to be. -/
theorem unmarked_of_get (h : ∀ key value, (KeyedMap.ofEntries entries).get key = some value →
    (entries.foldl readMetadata .empty).get key = some value) : ∀ entry ∈ entries, Unmarked entry.1 := by
  by_contra hnot
  have hsome : ∃ entry ∈ entries, ¬ Unmarked entry.1 := by
    simpa only [not_forall, exists_prop] using hnot
  have hlonger : ∀ n, ∃ entry ∈ entries, ¬ Unmarked entry.1 ∧ n ≤ entry.1.toList.length := by
    intro n
    induction n with
    | zero =>
        obtain ⟨entry, hentry, hmarked⟩ := hsome
        exact ⟨entry, hentry, hmarked, Nat.zero_le _⟩
    | succ n ih =>
        obtain ⟨entry, hentry, hmarked, hlength⟩ := ih
        obtain ⟨value, hvalue⟩ := KeyedMap.mem_keys.mp (KeyedMap.mem_keys_ofEntries.mpr ⟨entry.2, hentry⟩)
        rcases exists_of_readMetadata (h _ _ hvalue) with hnone | ⟨_, other, hother, heq⟩
        · cases hnone
        · by_cases hunmarked : Unmarked other.1
          · rw [withoutMark_eq_self.mpr hunmarked] at heq
            exact absurd (heq ▸ hunmarked) hmarked
          · refine ⟨other, hother, hunmarked, ?_⟩
            rw [withoutMark_of_marked hunmarked, heq, List.length_cons]
            omega
  obtain ⟨entry, hentry, _, hlength⟩ := hlonger ((entries.map (·.1.toList.length)).sum + 1)
  have hle := List.single_le_sum (fun _ _ => Nat.zero_le _) _ (List.mem_map.mpr ⟨entry, hentry, rfl⟩ :
    entry.1.toList.length ∈ entries.map (·.1.toList.length))
  omega

end Metadata

/-! ## Exactness -/

/-- The same reason and domain, and the same metadata under every key. -/
def GrpcErrorInfo.Same (info other : GrpcErrorInfo) : Prop :=
  info.reason = other.reason ∧ info.domain = other.domain ∧ ∀ key, info.metadata.get key = other.metadata.get key

/-- Error details without a marked text and without the key `__proto__`. -/
def GrpcErrorInfo.Plain (info : GrpcErrorInfo) : Prop :=
  Unmarked info.reason ∧ Unmarked info.domain ∧
    ∀ key value, info.metadata.get key = some value → key ≠ "__proto__" ∧ Unmarked key ∧ Unmarked value

theorem ErrorInfoEncoding.errorInfo_metadata (encoding : ErrorInfoEncoding) :
    encoding.errorInfo.metadata = .ofEntries (metadataEntries encoding.fields) :=
  foldl_apply encoding.fields _

theorem key_mem_metadata {entries : List (String × String)} {entry : String × String} (h : entry ∈ entries) :
    ∃ value, (KeyedMap.ofEntries entries).get entry.1 = some value :=
  KeyedMap.mem_keys.mp (KeyedMap.mem_keys_ofEntries.mpr ⟨entry.2, h⟩)

theorem readInfo_same_iff {encoding : ErrorInfoEncoding} (hkeys : encoding.errorInfo.metadata.get "" = none) :
    encoding.readInfo.Same encoding.errorInfo ↔ encoding.errorInfo.Plain := by
  obtain ⟨hreason, hdomain, hread⟩ := foldl_read encoding.fields ⟨"", "", .empty⟩ ⟨"", "", .empty⟩ rfl rfl
  have hmetadata := encoding.errorInfo_metadata
  have hnonempty : ∀ entry ∈ metadataEntries encoding.fields, entry.1 ≠ "" := by
    intro entry hentry hempty
    obtain ⟨value, hvalue⟩ := key_mem_metadata hentry
    rw [hmetadata, ← hempty, hvalue] at hkeys
    cases hkeys
  constructor
  · rintro ⟨hsameReason, hsameDomain, hsame⟩
    have hgiven : ∀ key value, (KeyedMap.ofEntries (metadataEntries encoding.fields)).get key = some value →
        ((metadataEntries encoding.fields).foldl readMetadata .empty).get key = some value := by
      intro key value hvalue
      rw [← hread, ← hvalue, ← hmetadata]
      exact hsame key
    have hproto : ∀ key value, (KeyedMap.ofEntries (metadataEntries encoding.fields)).get key = some value →
        key ≠ "__proto__" := by
      intro key value hvalue
      rcases exists_of_readMetadata (hgiven key value hvalue) with hnone | ⟨hkey, _⟩
      · cases hnone
      · exact hkey
    have hunmarked := unmarked_of_get hgiven
    have hplain : ∀ entry ∈ metadataEntries encoding.fields,
        entry.1 ≠ "" ∧ entry.1 ≠ "__proto__" ∧ Unmarked entry.1 := by
      intro entry hentry
      obtain ⟨value, hvalue⟩ := key_mem_metadata hentry
      exact ⟨hnonempty entry hentry, hproto _ _ hvalue, hunmarked entry hentry⟩
    refine ⟨withoutMark_eq_self.mp (hreason.symm.trans hsameReason),
      withoutMark_eq_self.mp (hdomain.symm.trans hsameDomain), fun key value hvalue => ?_⟩
    rw [hmetadata] at hvalue
    refine ⟨hproto key value hvalue, hunmarked _ (KeyedMap.mem_of_get_ofEntries hvalue), ?_⟩
    have hwithout := @get_readMetadata _ hplain .empty .empty (fun _ => rfl) key
    rw [hgiven key value hvalue] at hwithout
    change some value = ((KeyedMap.ofEntries (metadataEntries encoding.fields)).get key).map withoutMark at hwithout
    rw [hvalue] at hwithout
    exact withoutMark_eq_self.mp (Option.some.inj hwithout).symm
  · rintro ⟨hplainReason, hplainDomain, hplainMetadata⟩
    have hplain : ∀ entry ∈ metadataEntries encoding.fields,
        entry.1 ≠ "" ∧ entry.1 ≠ "__proto__" ∧ Unmarked entry.1 := by
      intro entry hentry
      obtain ⟨value, hvalue⟩ := key_mem_metadata hentry
      obtain ⟨hproto, hunmarked, _⟩ := hplainMetadata _ _ (hmetadata ▸ hvalue)
      exact ⟨hnonempty entry hentry, hproto, hunmarked⟩
    refine ⟨hreason.trans (withoutMark_eq_self.mpr hplainReason), hdomain.trans (withoutMark_eq_self.mpr hplainDomain),
      fun key => ?_⟩
    have hwithout := @get_readMetadata _ hplain .empty .empty (fun _ => rfl) key
    refine (congrArg (·.get key) hread).trans (hwithout.trans ?_)
    change ((KeyedMap.ofEntries (metadataEntries encoding.fields)).get key).map withoutMark = _
    rw [← hmetadata]
    cases hvalue : encoding.errorInfo.metadata.get key with
    | none => rfl
    | some value => exact congrArg some (withoutMark_eq_self.mpr (hplainMetadata key value hvalue).2.2)

/-- Error details with a reason and without an empty metadata key are read exactly if and only if no integer of their
encoding takes nine or ten bytes, no metadata key is `__proto__`, and no text begins with a byte order mark. On any
bytes the reader returns, and a message that it reads to the end it has read up to the last byte and not further. -/
theorem readErrorInfo_exact_iff (encoding : ErrorInfoEncoding) (hreason : encoding.errorInfo.reason ≠ "")
    (hkeys : encoding.errorInfo.metadata.get "" = none) :
    ((∃ info : GrpcErrorInfo, info.Same encoding.errorInfo ∧
        ∀ fuel, encoding.bytes.length < fuel → readErrorInfo fuel encoding.bytes = some (some info)) ↔
      encoding.Short ∧ encoding.errorInfo.Plain) ∧
    (∀ bytes, ∃ result, ∀ fuel, bytes.length < fuel → readErrorInfo fuel bytes = some result) ∧
    ∀ (bytes : List UInt8) (fuel : Nat) (state : MessageState), bytes.length < fuel →
      readFields fuel ⟨.ofBytes bytes, "", "", .empty⟩ = some (.ok state) →
      state.reader.bytes = bytes ∧ state.reader.offset = bytes.length := by
  refine ⟨⟨?_, ?_⟩, readErrorInfo_ends, ?_⟩
  · rintro ⟨info, hsame, hread⟩
    have hinfo := hread _ (Nat.lt_succ_self encoding.bytes.length)
    by_cases hshort : encoding.Short
    · rw [ErrorInfoEncoding.readErrorInfo_short hshort (Nat.lt_succ_self _), Option.some.injEq] at hinfo
      split_ifs at hinfo with hempty
      obtain rfl := Option.some.inj hinfo
      exact ⟨hshort, (readInfo_same_iff hkeys).mp hsame⟩
    · rw [ErrorInfoEncoding.readErrorInfo_long hshort (Nat.lt_succ_self _)] at hinfo
      cases hinfo
  · rintro ⟨hshort, hplain⟩
    have hsame := (readInfo_same_iff hkeys).mpr hplain
    refine ⟨encoding.readInfo, hsame, fun fuel hfuel => ?_⟩
    rw [ErrorInfoEncoding.readErrorInfo_short hshort hfuel, if_neg]
    rw [hsame.1, String.length_eq_zero_iff]
    exact hreason
  · intro bytes fuel state hfuel hstate
    obtain ⟨result, hresult, hfinal⟩ := readFields_ends hfuel
    exact hfinal state (Option.some.inj (hresult.symm.trans hstate))

/-! ## Two encodings -/

theorem one_le_ten : 1 ≤ 10 := Nat.le_add_left 1 9

theorem groupsValue_singleton (n : Fin 128) : groupsValue [n] = n := by
  rw [groupsValue, groupsValue, Nat.mul_zero, Nat.add_zero]

theorem groupsValue_singleton_lt (n : Fin 128) : groupsValue [n] < 2 ^ 64 := by
  rw [groupsValue_singleton]
  omega

/-- A number below 128 in one byte. -/
def oneByte (n : Fin 128) : VarintOf n :=
  ⟨⟨[n], List.cons_ne_nil _ _, one_le_ten, groupsValue_singleton_lt n⟩, groupsValue_singleton n⟩

/-- The reason `GONE` of details that have nothing else. -/
def goneReason : ErrorInfoField := .reason ⟨"GONE", oneByte 10, oneByte 4⟩

/-- The number -1 in a field of the message that the reader does not know. -/
def minusOne : ErrorInfoField :=
  .unknown ⟨4, .varint ⟨List.replicate 9 127 ++ [1], by decide, by decide, by decide⟩, oneByte 32, by decide, by decide,
    by decide⟩

theorem readErrorInfo_exact_iff_gone : ∃ encoding : ErrorInfoEncoding,
    encoding.bytes = [10, 4, 71, 79, 78, 69] ∧
    ((∃ info : GrpcErrorInfo, info.Same encoding.errorInfo ∧
        ∀ fuel, encoding.bytes.length < fuel → readErrorInfo fuel encoding.bytes = some (some info)) ↔
      encoding.Short ∧ encoding.errorInfo.Plain) :=
  ⟨⟨[goneReason], by decide +kernel⟩, by decide +kernel,
    (readErrorInfo_exact_iff ⟨[goneReason], by decide +kernel⟩ (by decide +kernel) rfl).1⟩

/-- Ten bytes of a number in an unknown field, and the reason is lost. -/
theorem negative_number_loses_reason : ∃ encoding : ErrorInfoEncoding,
    encoding.bytes = [10, 4, 71, 79, 78, 69, 32, 255, 255, 255, 255, 255, 255, 255, 255, 255, 1] ∧
    encoding.errorInfo.reason = "GONE" ∧ encoding.errorInfo.metadata.get "" = none ∧
    ¬ ∃ info : GrpcErrorInfo, info.Same encoding.errorInfo ∧
      ∃ fuel, encoding.bytes.length < fuel ∧ readErrorInfo fuel encoding.bytes = some (some info) := by
  refine ⟨⟨[goneReason, minusOne], by decide +kernel⟩, by decide +kernel, by decide +kernel, rfl, ?_⟩
  rintro ⟨info, _, fuel, hfuel, hread⟩
  rw [ErrorInfoEncoding.readErrorInfo_long (fun hshort => ?_) hfuel] at hread
  · cases hread
  · have hnumber : (10 : Nat) ≤ 8 := (hshort minusOne (by simp)).2
    omega

end CantonSdk.Transports
