import CantonSdk.Debugger.Renormalization

/-!
# Messages of ledger values

Every typed value stands in an envelope of objects, and on the envelope the untyped normalizer computes what
the typed one says. A second pass finds the labels and keys that the user chose where it expects those of an
envelope. Which values survive it unchanged is told here from the typed value alone.
-/

set_option linter.all false

namespace CantonSdk.Debugger

open CantonSdk.Base HostValue

/-! ## Envelopes -/

/-- A message of one kind. -/
def oneofEnvelope (kind : String) (member : HostValue) : HostValue :=
  .object [("sum", .object [("oneofKind", .string kind), (kind, member)])]

def recordIdProperties : Option ReplayIdentifier → List (String × HostValue)
  | none => []
  | some recordId => [("recordId", recordIdValue recordId)]

mutual

/-- The message of a value. -/
def LedgerValue.envelope : LedgerValue → HostValue
  | .unit => oneofEnvelope "unit" (.object [])
  | .bool value => oneofEnvelope "bool" (.bool value)
  | .int64 value => oneofEnvelope "int64" (.string value)
  | .date value => oneofEnvelope "date" (.number value)
  | .timestamp value => oneofEnvelope "timestamp" (.string value)
  | .numeric value => oneofEnvelope "numeric" (.string value)
  | .party value => oneofEnvelope "party" (.string value)
  | .text value => oneofEnvelope "text" (.string value)
  | .contractId value => oneofEnvelope "contractId" (.string value)
  | .optional none => oneofEnvelope "optional" (.object [])
  | .optional (some value) => oneofEnvelope "optional" (.object [("value", value.envelope)])
  | .list elements => oneofEnvelope "list" (.object [("elements", .array (envelopesOfElements elements))])
  | .textMap entries => oneofEnvelope "textMap" (.object [("entries", .array (envelopesOfEntries entries))])
  | .genMap entries => oneofEnvelope "genMap" (.object [("entries", .array (envelopesOfPairs entries))])
  | .record recordId fields =>
      oneofEnvelope "record"
        (.object (recordIdProperties recordId ++ [("fields", .array (envelopesOfFields fields))]))
  | .variant constructor_ value =>
      oneofEnvelope "variant" (.object [("constructor", .string constructor_), ("value", value.envelope)])
  | .enum constructor_ => oneofEnvelope "enum" (.object [("constructor", .string constructor_)])

def envelopesOfElements : List LedgerValue → List HostValue
  | [] => []
  | element :: rest => element.envelope :: envelopesOfElements rest

def envelopesOfEntries : List (String × LedgerValue) → List HostValue
  | [] => []
  | (key, value) :: rest => .object [("key", .string key), ("value", value.envelope)] :: envelopesOfEntries rest

def envelopesOfPairs : List (LedgerValue × LedgerValue) → List HostValue
  | [] => []
  | (key, value) :: rest => .object [("key", key.envelope), ("value", value.envelope)] :: envelopesOfPairs rest

def envelopesOfFields : List (String × LedgerValue) → List HostValue
  | [] => []
  | (label, value) :: rest => .object [("label", .string label), ("value", value.envelope)] :: envelopesOfFields rest

end

theorem normalize_oneofEnvelope (kind : String) (member : HostValue) :
    Untyped.normalizeReplayLedgerValue (oneofEnvelope kind member)
      = Untyped.normalizeOneofValue (.object [("oneofKind", .string kind), (kind, member)]) := by
  rw [oneofEnvelope, Untyped.normalizeReplayLedgerValue]
  rfl

theorem isFieldList_envelopesOfFields (fields : List (String × LedgerValue)) :
    Untyped.isFieldList (.array (envelopesOfFields fields)) = true := by
  rw [Untyped.isFieldList]
  induction fields with
  | nil => rfl
  | cons field rest ih =>
      rw [envelopesOfFields, List.all_cons, ih]
      rfl

theorem nonEmpty_read (text : Option String) (properties : List (String × HostValue)) (propertyName : String)
    (h : Untyped.readObjectProperty (.object properties) propertyName = optionalString text) :
    Untyped.readOptionalObjectString (.object properties) propertyName = nonEmpty text := by
  rw [Untyped.readOptionalObjectString, Untyped.readObjectString, h]
  cases text <;> rfl

theorem readRecordId_message (recordId : Option ReplayIdentifier) (fields : HostValue) :
    Untyped.readRecordId (.object (recordIdProperties recordId ++ [("fields", fields)])) = recordId.map readRecordId := by
  cases recordId with
  | none => rfl
  | some recordId =>
      have hread : Untyped.readObjectProperty (.object (recordIdProperties (some recordId) ++ [("fields", fields)])) "recordId"
          = recordIdValue recordId := rfl
      rw [Untyped.readRecordId, hread, recordIdValue, Option.map_some, readRecordId]
      simp only [Untyped.isOneofValue, ↓reduceIte]
      rw [nonEmpty_read recordId.packageId _ _ rfl, nonEmpty_read recordId.moduleName _ _ rfl,
        nonEmpty_read recordId.entityName _ _ rfl]

theorem recordObject_eq (recordId : Option ReplayIdentifier) (entries : List (String × HostValue)) :
    Untyped.recordObject (recordId.map readRecordId) entries = recordValue recordId entries := by
  cases recordId <;> rfl

/-- The message of a record, once its fields are normalized. -/
theorem normalize_recordMessage (recordId : Option ReplayIdentifier) (fields : List (String × LedgerValue))
    (hfields : Untyped.normalizeFields 0 (envelopesOfFields fields) = normalizeFields 0 fields) :
    Untyped.normalizeReplayLedgerValue
        (.object (recordIdProperties recordId ++ [("fields", .array (envelopesOfFields fields))]))
      = recordValue recordId (normalizeFields 0 fields) := by
  have hsum : Untyped.readObjectProperty
      (.object (recordIdProperties recordId ++ [("fields", .array (envelopesOfFields fields))])) "sum" = .undefined := by
    cases recordId <;> rfl
  have hlist : Untyped.readObjectProperty
      (.object (recordIdProperties recordId ++ [("fields", .array (envelopesOfFields fields))])) "fields"
        = .array (envelopesOfFields fields) := by
    cases recordId <;> rfl
  rw [Untyped.normalizeReplayLedgerValue, hsum, if_neg (by simp [Untyped.isOneofValue]), hlist,
    if_pos (isFieldList_envelopesOfFields fields), Untyped.readArray, hlist, hfields, readRecordId_message,
    recordObject_eq]

mutual

/-- On its envelope the normalizer computes the typed normal form of a value. -/
theorem normalize_envelope (value : LedgerValue) :
    Untyped.normalizeReplayLedgerValue value.envelope = normalizeReplayLedgerValue value := by
  cases value with
  | optional part =>
      cases part with
      | none =>
          rw [LedgerValue.envelope, normalize_oneofEnvelope, Untyped.normalizeOneofValue]
          simp [Untyped.readObjectProperty, lookup, Untyped.normalizeOptionalValue, normalizeReplayLedgerValue,
            Untyped.normalizeReplayLedgerValue]
      | some part =>
          rw [LedgerValue.envelope, normalize_oneofEnvelope, Untyped.normalizeOneofValue]
          simp [Untyped.readObjectProperty, lookup, Untyped.normalizeOptionalValue, normalizeReplayLedgerValue,
            normalize_envelope part]
  | list elements =>
      rw [LedgerValue.envelope, normalize_oneofEnvelope, Untyped.normalizeOneofValue]
      simp [Untyped.readObjectProperty, lookup, Untyped.normalizeListValue, Untyped.readArray,
        normalizeReplayLedgerValue, normalize_envelopesOfElements elements]
  | textMap entries =>
      rw [LedgerValue.envelope, normalize_oneofEnvelope, Untyped.normalizeOneofValue]
      simp [Untyped.readObjectProperty, lookup, Untyped.normalizeTextMapValue, Untyped.readArray,
        normalizeReplayLedgerValue, normalize_envelopesOfEntries entries]
  | genMap entries =>
      rw [LedgerValue.envelope, normalize_oneofEnvelope, Untyped.normalizeOneofValue]
      simp [Untyped.readObjectProperty, lookup, Untyped.normalizeGenMapValue, Untyped.readArray,
        normalizeReplayLedgerValue, normalize_envelopesOfPairs entries]
  | record recordId fields =>
      rw [LedgerValue.envelope, normalize_oneofEnvelope, Untyped.normalizeOneofValue]
      simp only [Untyped.readObjectProperty, lookup, List.find?_cons, decide_true, Option.map_some, Option.getD_some]
      exact normalize_recordMessage recordId fields (normalize_envelopesOfFields 0 fields)
  | variant constructor_ part =>
      rw [LedgerValue.envelope, normalize_oneofEnvelope, Untyped.normalizeOneofValue]
      simp [Untyped.readObjectProperty, Untyped.readObjectString, lookup, normalizeReplayLedgerValue,
        normalize_envelope part]
  | unit | bool | int64 | date | timestamp | numeric | party | text | contractId | enum =>
      rw [LedgerValue.envelope, normalize_oneofEnvelope, Untyped.normalizeOneofValue]
      simp [Untyped.readObjectProperty, Untyped.readObjectString, lookup, normalizeReplayLedgerValue]

theorem normalize_envelopesOfElements (elements : List LedgerValue) :
    Untyped.normalizeItems (envelopesOfElements elements) = normalizeElements elements := by
  cases elements with
  | nil => rw [envelopesOfElements, Untyped.normalizeItems, normalizeElements]
  | cons element rest =>
      rw [envelopesOfElements, Untyped.normalizeItems, normalizeElements, normalize_envelope element,
        normalize_envelopesOfElements rest]

theorem normalize_envelopesOfEntries (entries : List (String × LedgerValue)) :
    Untyped.normalizeEntries (envelopesOfEntries entries) = normalizeEntries entries := by
  cases entries with
  | nil => rw [envelopesOfEntries, Untyped.normalizeEntries, normalizeEntries]
  | cons entry rest =>
      obtain ⟨key, value⟩ := entry
      rw [envelopesOfEntries, Untyped.normalizeEntries, normalizeEntries, normalize_envelopesOfEntries rest]
      simp [Untyped.readObjectProperty, Untyped.readObjectString, lookup, normalize_envelope value]

theorem normalize_envelopesOfPairs (entries : List (LedgerValue × LedgerValue)) :
    Untyped.normalizePairs (envelopesOfPairs entries) = normalizePairs entries := by
  cases entries with
  | nil => rw [envelopesOfPairs, Untyped.normalizePairs, normalizePairs]
  | cons entry rest =>
      obtain ⟨key, value⟩ := entry
      rw [envelopesOfPairs, Untyped.normalizePairs, normalizePairs, normalize_envelopesOfPairs rest]
      simp [Untyped.readObjectProperty, lookup, normalize_envelope key, normalize_envelope value]

theorem normalize_envelopesOfFields (index : Nat) (fields : List (String × LedgerValue)) :
    Untyped.normalizeFields index (envelopesOfFields fields) = normalizeFields index fields := by
  cases fields with
  | nil => rw [envelopesOfFields, Untyped.normalizeFields, normalizeFields]
  | cons field rest =>
      obtain ⟨label, value⟩ := field
      rw [envelopesOfFields, Untyped.normalizeFields, normalizeFields, normalize_envelopesOfFields (index + 1) rest]
      simp [Untyped.readObjectProperty, Untyped.readObjectString, lookup, normalize_envelope value]

end

end CantonSdk.Debugger
