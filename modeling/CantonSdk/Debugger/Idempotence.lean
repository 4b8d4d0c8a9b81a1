import CantonSdk.Debugger.Envelopes

/-!
# Values that normalize once and for all

A record or a text map is taken for a message in a second pass if it keeps an object under `sum`, or a list of
objects with a `value` under `fields`. Whether a value keeps such a thing anywhere is read off the typed value:
which of two entries with one key survives, and what shape the normal form of an entry has.
-/

set_option linter.all false

namespace CantonSdk.Debugger

open CantonSdk.Base HostValue

/-! ## Shapes of typed values -/

/-- The keys of the fields of a record, from an index on. -/
def recordKeys (index : Nat) : List (String × LedgerValue) → List String
  | [] => []
  | (label, _) :: rest => getRecordFieldKey label index :: recordKeys (index + 1) rest

namespace LedgerValue

/-- The normal form is not undefined. -/
def isPresent : LedgerValue → Bool
  | .optional none => false
  | .optional (some value) => value.isPresent
  | _ => true

/-- The normal form is an object or an array. -/
def isObject : LedgerValue → Bool
  | .optional (some value) => value.isObject
  | .optional none | .unit | .bool _ | .int64 _ | .date _ | .timestamp _ | .text _ | .enum _ => false
  | .numeric _ | .party _ | .contractId _ | .list _ | .textMap _ | .genMap _ | .record .. | .variant .. => true

/-- The normal form is an object with a `value`. -/
def hasValue : LedgerValue → Bool
  | .optional (some value) => value.hasValue
  | .textMap entries => (entries.map Prod.fst).contains "value"
  | .record _ fields => (recordKeys 0 fields).contains "value"
  | .variant .. => true
  | _ => false

/-- The normal form is an array of objects with a `value`. -/
def listsFields : LedgerValue → Bool
  | .optional (some value) => value.listsFields
  | .list elements => elements.all hasValue
  | .genMap _ => true
  | _ => false

/-- A property for which the object that has it is taken for a message. -/
def mimics (key : String) (value : LedgerValue) : Bool :=
  (decide (key = "sum") && value.isObject) || (decide (key = "fields") && value.listsFields)

end LedgerValue

section EveryProperty

variable (p : String → LedgerValue → Bool) (q : ReplayIdentifier → Bool)

mutual

/-- `p` holds of the properties that the normal form of the value has at any depth, and `q` of the identifiers
that mark its records. An entry does not count if a later one has its key. -/
def LedgerValue.everyProperty : LedgerValue → Bool
  | .unit | .bool _ | .int64 _ | .date _ | .timestamp _ | .numeric _ | .party _ | .text _ | .contractId _
  | .enum _ => true
  | .optional none => true
  | .optional (some value) => value.everyProperty
  | .list elements => everyPropertyOfElements elements
  | .textMap entries => everyPropertyOfEntries entries
  | .genMap entries => everyPropertyOfPairs entries
  | .record recordId fields => recordId.all q && everyPropertyOfFields recordId.isSome 0 fields
  | .variant _ value => p "value" value && value.everyProperty

def everyPropertyOfElements : List LedgerValue → Bool
  | [] => true
  | element :: rest => element.everyProperty && everyPropertyOfElements rest

def everyPropertyOfEntries : List (String × LedgerValue) → Bool
  | [] => true
  | (key, value) :: rest =>
      ((rest.map Prod.fst).contains key || p key value && value.everyProperty) && everyPropertyOfEntries rest

def everyPropertyOfPairs : List (LedgerValue × LedgerValue) → Bool
  | [] => true
  | (key, value) :: rest =>
      (p "key" key && key.everyProperty) && (p "value" value && value.everyProperty) && everyPropertyOfPairs rest

/-- The marker for the type of a marked record overwrites a field with its key. -/
def everyPropertyOfFields (marked : Bool) (index : Nat) : List (String × LedgerValue) → Bool
  | [] => true
  | (label, value) :: rest =>
      ((recordKeys (index + 1) rest).contains (getRecordFieldKey label index)
          || marked && decide (getRecordFieldKey label index = recordIdMarkerKey)
          || p (getRecordFieldKey label index) value && value.everyProperty)
        && everyPropertyOfFields marked (index + 1) rest

end

end EveryProperty

/-- No record, text map or pair in the value is taken for a message. -/
def LedgerValue.mimicsNothing (value : LedgerValue) : Bool :=
  value.everyProperty (fun key child => !child.mimics key) fun _ => true

/-- No field, entry or part of an identifier in the value is undefined. -/
def LedgerValue.leavesNothingUndefined (value : LedgerValue) : Bool :=
  value.everyProperty (fun _ child => child.isPresent) fun recordId =>
    (nonEmpty recordId.packageId).isSome && (nonEmpty recordId.moduleName).isSome && (nonEmpty recordId.entityName).isSome

/-! ## Shapes of normal forms -/

theorem keys_untypedEntries (entries : List (String × LedgerValue)) :
    (normalizeEntries entries).map Prod.fst = entries.map Prod.fst := by
  induction entries with
  | nil => rfl
  | cons entry rest ih => rw [normalizeEntries, List.map_cons, List.map_cons, ih]

theorem keys_normalizeFields (index : Nat) (fields : List (String × LedgerValue)) :
    (normalizeFields index fields).map Prod.fst = recordKeys index fields := by
  induction fields generalizing index with
  | nil => rfl
  | cons field rest ih => rw [normalizeFields, recordKeys, List.map_cons, ih]

theorem hasProperty_object {properties : List (String × HostValue)} {key : String} :
    Untyped.hasProperty (.object properties) key = (properties.map Prod.fst).contains key := by
  rw [Bool.eq_iff_iff, Untyped.hasProperty, lookup, Option.isSome_map, List.find?_isSome, List.contains_iff_mem]
  simp

theorem mem_keys_fromEntries {entries : List (String × HostValue)} {key : String} :
    key ∈ (ownOrder (KeyedMap.ofEntries entries).entries).map Prod.fst ↔ key ∈ entries.map Prod.fst := by
  rw [((perm_ownOrder _).map Prod.fst).mem_iff]
  exact KeyedMap.mem_keys_ofEntries.trans (by simp)

theorem mem_keys_recordValue {recordId : Option ReplayIdentifier} {entries properties : List (String × HostValue)}
    (h : recordValue recordId entries = .object properties) {key : String} (hkey : key ≠ recordIdMarkerKey) :
    key ∈ properties.map Prod.fst ↔ key ∈ entries.map Prod.fst := by
  cases recordId with
  | none =>
      obtain rfl := HostValue.object.inj h
      exact mem_keys_fromEntries
  | some recordId =>
      obtain rfl := HostValue.object.inj h
      rw [((perm_ownOrder _).map Prod.fst).mem_iff]
      change key ∈ ((KeyedMap.ofEntries (ownOrder (KeyedMap.ofEntries entries).entries)).set _ _).keys ↔ _
      rw [KeyedMap.mem_keys_set, or_iff_right hkey, KeyedMap.mem_keys_ofEntries, ← mem_keys_fromEntries]
      simp

theorem recordValue_eq_object (recordId : Option ReplayIdentifier) (entries : List (String × HostValue)) :
    ∃ properties, recordValue recordId entries = .object properties := by
  rw [← recordObject_eq]
  exact Untyped.recordObject_eq_object _ _

section Shapes

theorem isUndefined_normalize (value : LedgerValue) :
    (normalizeReplayLedgerValue value).isUndefined = !value.isPresent := by
  cases value with
  | optional part =>
      cases part with
      | none => rfl
      | some part =>
          rw [normalizeReplayLedgerValue, LedgerValue.isPresent]
          exact isUndefined_normalize part
  | record recordId fields => cases recordId <;> rfl
  | _ => rfl

theorem isOneofValue_normalize (value : LedgerValue) :
    Untyped.isOneofValue (normalizeReplayLedgerValue value) = value.isObject := by
  cases value with
  | optional part =>
      cases part with
      | none => rfl
      | some part =>
          rw [normalizeReplayLedgerValue, LedgerValue.isObject]
          exact isOneofValue_normalize part
  | record recordId fields => cases recordId <;> rfl
  | _ => rfl

theorem hasProperty_normalize (value : LedgerValue) :
    Untyped.hasProperty (normalizeReplayLedgerValue value) "value" = value.hasValue := by
  cases value with
  | optional part =>
      cases part with
      | none => rfl
      | some part =>
          rw [normalizeReplayLedgerValue, LedgerValue.hasValue]
          exact hasProperty_normalize part
  | textMap entries =>
      rw [normalizeReplayLedgerValue, fromEntries, hasProperty_object, LedgerValue.hasValue, Bool.eq_iff_iff,
        List.contains_iff_mem, List.contains_iff_mem, mem_keys_fromEntries, keys_untypedEntries]
  | record recordId fields =>
      obtain ⟨properties, hproperties⟩ := recordValue_eq_object recordId (normalizeFields 0 fields)
      rw [normalizeReplayLedgerValue, hproperties, hasProperty_object, LedgerValue.hasValue, Bool.eq_iff_iff,
        List.contains_iff_mem, List.contains_iff_mem, mem_keys_recordValue hproperties (by decide), keys_normalizeFields]
  | _ => rfl

theorem all_hasValue_pairs (entries : List (LedgerValue × LedgerValue)) :
    (normalizePairs entries).all (fun field => Untyped.hasProperty field "value") = true := by
  induction entries with
  | nil => rfl
  | cons entry rest ih =>
      rw [normalizePairs, List.all_cons, ih]
      rfl

theorem all_hasValue_elements (elements : List LedgerValue) :
    (normalizeElements elements).all (fun field => Untyped.hasProperty field "value") = elements.all LedgerValue.hasValue := by
  induction elements with
  | nil => rfl
  | cons element rest ih => rw [normalizeElements, List.all_cons, List.all_cons, ih, hasProperty_normalize]

theorem isFieldList_normalize (value : LedgerValue) :
    Untyped.isFieldList (normalizeReplayLedgerValue value) = value.listsFields := by
  cases value with
  | optional part =>
      cases part with
      | none => rfl
      | some part =>
          rw [normalizeReplayLedgerValue, LedgerValue.listsFields]
          exact isFieldList_normalize part
  | list elements => exact all_hasValue_elements elements
  | genMap entries => exact all_hasValue_pairs entries
  | record recordId fields => cases recordId <;> rfl
  | _ => rfl

theorem mimics_normalize (key : String) (value : LedgerValue) :
    Untyped.mimics key (normalizeReplayLedgerValue value) = value.mimics key := by
  rw [Untyped.mimics, LedgerValue.mimics, isOneofValue_normalize, isFieldList_normalize]

end Shapes

/-! ## Order of properties -/

theorem inOwnOrder_fromEntries (entries : List (String × HostValue)) :
    InOwnOrder (ownOrder (KeyedMap.ofEntries entries).entries) :=
  inOwnOrder_ownOrder (KeyedMap.ofEntries entries).keys_nodup

theorem everyObject_fromEntries {p : List (String × HostValue) → Prop} {entries : List (String × HostValue)} :
    EveryObject p (fromEntries entries) ↔ p (ownOrder (KeyedMap.ofEntries entries).entries) ∧
      ∀ entry ∈ (KeyedMap.ofEntries entries).entries, EveryObject p entry.2 := by
  rw [fromEntries, everyObject_object]
  refine and_congr_right fun _ => ?_
  constructor
  · intro h entry hentry
    exact h entry ((perm_ownOrder _).mem_iff.mpr hentry)
  · intro h entry hentry
    exact h entry ((perm_ownOrder _).mem_iff.mp hentry)

/-- Of the entries of an object the first counts if none of the others has its key. -/
theorem forall_mem_ofEntries_cons {R : String × HostValue → Prop} {entry : String × HostValue}
    {rest : List (String × HostValue)} :
    (∀ property ∈ (KeyedMap.ofEntries (entry :: rest)).entries, R property) ↔
      (entry.1 ∈ rest.map Prod.fst ∨ R entry) ∧ ∀ property ∈ (KeyedMap.ofEntries rest).entries, R property := by
  have hget : ∀ entries : List (String × HostValue), (∀ property ∈ (KeyedMap.ofEntries entries).entries, R property) ↔
      ∀ key value, (KeyedMap.ofEntries entries).get key = some value → R (key, value) := by
    intro entries
    rw [Prod.forall]
    simp only [KeyedMap.get_eq_some]
  have hfresh : (KeyedMap.ofEntries rest).get entry.1 = none ↔ entry.1 ∉ rest.map Prod.fst := by
    rw [KeyedMap.get_eq_none, KeyedMap.mem_keys_ofEntries]
    simp
  rw [hget, hget]
  simp only [get_ofEntries_cons]
  constructor
  · intro h
    constructor
    · by_cases hkey : entry.1 ∈ rest.map Prod.fst
      · exact Or.inl hkey
      · right
        apply h
        rw [hfresh.mpr hkey, if_pos rfl]
        rfl
    · intro key value hvalue
      apply h
      rw [hvalue]
      rfl
  · rintro ⟨hfirst, hrest⟩ key value hvalue
    rcases Option.or_eq_some_iff.mp hvalue with hvalue | ⟨hnone, hvalue⟩
    · exact hrest key value hvalue
    · rw [Option.ite_none_right_eq_some] at hvalue
      obtain ⟨rfl, hsome⟩ := hvalue
      obtain rfl := Option.some.inj hsome
      exact hfirst.resolve_left (hfresh.mp hnone)

/-- The marker of a record overwrites a field with its key. -/
theorem everyObject_recordValue {p : List (String × HostValue) → Prop} {P : String → HostValue → Prop}
    (hp : ∀ properties, p properties ↔ ∀ property ∈ properties, P property.1 property.2)
    {recordId : Option ReplayIdentifier} {entries : List (String × HostValue)} :
    EveryObject p (recordValue recordId entries) ↔
      (∀ id ∈ recordId, P recordIdMarkerKey (recordIdValue (readRecordId id)) ∧
        EveryObject p (recordIdValue (readRecordId id))) ∧
      ∀ entry ∈ (KeyedMap.ofEntries entries).entries, recordId.isSome = true ∧ entry.1 = recordIdMarkerKey ∨
        P entry.1 entry.2 ∧ EveryObject p entry.2 := by
  cases recordId with
  | none =>
      have hplain : recordValue none entries = fromEntries entries := rfl
      rw [hplain, everyObject_fromEntries, hp]
      simp only [(perm_ownOrder _).mem_iff]
      constructor
      · rintro ⟨hfirst, hsecond⟩
        exact ⟨by simp, fun entry hentry => Or.inr ⟨hfirst entry hentry, hsecond entry hentry⟩⟩
      · rintro ⟨-, h⟩
        have hboth := fun entry hentry => (h entry hentry).resolve_left (by simp)
        exact ⟨fun entry hentry => (hboth entry hentry).1, fun entry hentry => (hboth entry hentry).2⟩
  | some id =>
      have hmem : ∀ property : String × HostValue,
          property ∈ ownOrder ((KeyedMap.ofEntries (ownOrder (KeyedMap.ofEntries entries).entries)).set recordIdMarkerKey
            (recordIdValue (readRecordId id))).entries ↔
          property = (recordIdMarkerKey, recordIdValue (readRecordId id)) ∨
            property.1 ≠ recordIdMarkerKey ∧ property ∈ (KeyedMap.ofEntries entries).entries := by
        intro property
        have hnodup : ((ownOrder (KeyedMap.ofEntries entries).entries).map Prod.fst).Nodup :=
          (inOwnOrder_fromEntries entries).nodup
        rw [(perm_ownOrder _).mem_iff, ← KeyedMap.get_eq_some, KeyedMap.get_set]
        split
        · next hkey =>
            constructor
            · intro hvalue
              exact Or.inl (Prod.ext hkey (Option.some.inj hvalue).symm)
            · rintro (rfl | ⟨hne, _⟩)
              · rfl
              · exact absurd hkey hne
        · next hkey =>
            rw [KeyedMap.get_eq_some, KeyedMap.entries_ofEntries hnodup, (perm_ownOrder _).mem_iff]
            constructor
            · exact fun hentry => Or.inr ⟨hkey, hentry⟩
            · rintro (rfl | ⟨_, hentry⟩)
              · exact absurd rfl hkey
              · exact hentry
      have hmarked : recordValue (some id) entries = .object (ownOrder ((KeyedMap.ofEntries
          (ownOrder (KeyedMap.ofEntries entries).entries)).set recordIdMarkerKey
            (recordIdValue (readRecordId id))).entries) := rfl
      rw [hmarked, everyObject_object, hp]
      simp only [hmem]
      constructor
      · rintro ⟨hfirst, hsecond⟩
        refine ⟨?_, fun entry hentry => ?_⟩
        · intro other hother
          obtain rfl := Option.some.inj hother
          exact ⟨hfirst _ (Or.inl rfl), hsecond _ (Or.inl rfl)⟩
        · by_cases hkey : entry.1 = recordIdMarkerKey
          · exact Or.inl ⟨rfl, hkey⟩
          · exact Or.inr ⟨hfirst _ (Or.inr ⟨hkey, hentry⟩), hsecond _ (Or.inr ⟨hkey, hentry⟩)⟩
      · rintro ⟨hid, hentries⟩
        have hboth : ∀ property, property = (recordIdMarkerKey, recordIdValue (readRecordId id)) ∨
            property.1 ≠ recordIdMarkerKey ∧ property ∈ (KeyedMap.ofEntries entries).entries →
            P property.1 property.2 ∧ EveryObject p property.2 := by
          rintro property (rfl | ⟨hne, hentry⟩)
          · exact hid id rfl
          · exact (hentries property hentry).resolve_left fun h => hne h.2
        exact ⟨fun property h => (hboth property h).1, fun property h => (hboth property h).2⟩

/-! ## Properties at any depth -/

section Link

variable {p : String → LedgerValue → Bool} {q : ReplayIdentifier → Bool} {P : String → HostValue → Prop}
  {Q : List (String × HostValue) → Prop}

/-- What is said of the properties of normal forms agrees with what is said of typed values. -/
structure Agrees (p : String → LedgerValue → Bool) (q : ReplayIdentifier → Bool) (P : String → HostValue → Prop)
    (Q : List (String × HostValue) → Prop) : Prop where
  object : ∀ properties, Q properties ↔ ∀ property ∈ properties, P property.1 property.2
  child : ∀ key value, P key (normalizeReplayLedgerValue value) ↔ p key value = true
  text : ∀ key text, P key (.string text)
  identifier : ∀ recordId, P recordIdMarkerKey (recordIdValue (readRecordId recordId)) ∧
    EveryObject Q (recordIdValue (readRecordId recordId)) ↔ q recordId = true

theorem Agrees.marked (h : Agrees p q P Q) (key text : String) : EveryObject Q (.object [(key, .string text)]) := by
  rw [everyObject_object, h.object]
  exact ⟨List.forall_mem_singleton.mpr (h.text key text), List.forall_mem_singleton.mpr trivial⟩

theorem Agrees.pair (h : Agrees p q P Q) {key key' : String} {first second : HostValue} :
    EveryObject Q (.object [(key, first), (key', second)]) ↔
      (P key first ∧ EveryObject Q first) ∧ P key' second ∧ EveryObject Q second := by
  rw [everyObject_object, h.object]
  simp only [List.forall_mem_cons, List.not_mem_nil, false_imp_iff, implies_true, and_true]
  tauto

mutual

theorem everyObject_iff (h : Agrees p q P Q) (value : LedgerValue) :
    EveryObject Q (normalizeReplayLedgerValue value) ↔ value.everyProperty p q = true := by
  cases value with
  | optional part =>
      cases part with
      | none => simp [normalizeReplayLedgerValue, LedgerValue.everyProperty, EveryObject]
      | some part =>
          rw [normalizeReplayLedgerValue, LedgerValue.everyProperty]
          exact everyObject_iff h part
  | list elements =>
      rw [normalizeReplayLedgerValue, LedgerValue.everyProperty, everyObject_array]
      exact everyObject_elements h elements
  | textMap entries =>
      rw [normalizeReplayLedgerValue, LedgerValue.everyProperty, everyObject_fromEntries, h.object,
        ← everyObject_entries h entries]
      simp only [(perm_ownOrder _).mem_iff]
      exact ⟨fun hboth entry hentry => ⟨hboth.1 entry hentry, hboth.2 entry hentry⟩,
        fun hboth => ⟨fun entry hentry => (hboth entry hentry).1, fun entry hentry => (hboth entry hentry).2⟩⟩
  | genMap entries =>
      rw [normalizeReplayLedgerValue, LedgerValue.everyProperty, everyObject_array]
      exact everyObject_pairs h entries
  | record recordId fields =>
      rw [normalizeReplayLedgerValue, LedgerValue.everyProperty, everyObject_recordValue h.object, Bool.and_eq_true,
        ← everyObject_fields h recordId.isSome 0 fields]
      refine and_congr_left fun _ => ?_
      cases recordId with
      | none => simp
      | some recordId =>
          rw [Option.all_some, ← h.identifier]
          simp
  | variant constructor_ part =>
      rw [normalizeReplayLedgerValue, LedgerValue.everyProperty, h.pair, Bool.and_eq_true, ← everyObject_iff h part,
        h.child]
      exact and_iff_right ⟨h.text _ _, trivial⟩
  | numeric value => exact iff_of_true (h.marked _ value) rfl
  | party value => exact iff_of_true (h.marked _ value) rfl
  | contractId value => exact iff_of_true (h.marked _ value) rfl
  | _ => simp [normalizeReplayLedgerValue, LedgerValue.everyProperty, EveryObject]

theorem everyObject_elements (h : Agrees p q P Q) (elements : List LedgerValue) :
    (∀ item ∈ normalizeElements elements, EveryObject Q item) ↔ everyPropertyOfElements p q elements = true := by
  cases elements with
  | nil => simp [normalizeElements, everyPropertyOfElements]
  | cons element rest =>
      rw [normalizeElements, List.forall_mem_cons, everyPropertyOfElements, Bool.and_eq_true, everyObject_iff h element,
        everyObject_elements h rest]

theorem everyObject_entries (h : Agrees p q P Q) (entries : List (String × LedgerValue)) :
    (∀ entry ∈ (KeyedMap.ofEntries (normalizeEntries entries)).entries, P entry.1 entry.2 ∧ EveryObject Q entry.2) ↔
      everyPropertyOfEntries p q entries = true := by
  cases entries with
  | nil =>
      rw [normalizeEntries, everyPropertyOfEntries]
      exact iff_of_true (fun _ hentry => by cases hentry) rfl
  | cons entry rest =>
      obtain ⟨key, value⟩ := entry
      rw [normalizeEntries, everyPropertyOfEntries, forall_mem_ofEntries_cons, everyObject_entries h rest,
        keys_untypedEntries, h.child, everyObject_iff h value]
      simp only [Bool.and_eq_true, Bool.or_eq_true, List.contains_iff_mem]

theorem everyObject_pairs (h : Agrees p q P Q) (entries : List (LedgerValue × LedgerValue)) :
    (∀ item ∈ normalizePairs entries, EveryObject Q item) ↔ everyPropertyOfPairs p q entries = true := by
  cases entries with
  | nil => simp [normalizePairs, everyPropertyOfPairs]
  | cons entry rest =>
      obtain ⟨key, value⟩ := entry
      rw [normalizePairs, everyPropertyOfPairs, List.forall_mem_cons, everyObject_pairs h rest, h.pair, h.child,
        h.child, everyObject_iff h key, everyObject_iff h value]
      simp only [Bool.and_eq_true]

theorem everyObject_fields (h : Agrees p q P Q) (marked : Bool) (index : Nat) (fields : List (String × LedgerValue)) :
    (∀ entry ∈ (KeyedMap.ofEntries (normalizeFields index fields)).entries,
      marked = true ∧ entry.1 = recordIdMarkerKey ∨ P entry.1 entry.2 ∧ EveryObject Q entry.2) ↔
      everyPropertyOfFields p q marked index fields = true := by
  cases fields with
  | nil =>
      rw [normalizeFields, everyPropertyOfFields]
      exact iff_of_true (fun _ hentry => by cases hentry) rfl
  | cons field rest =>
      obtain ⟨label, value⟩ := field
      rw [normalizeFields, everyPropertyOfFields, forall_mem_ofEntries_cons, everyObject_fields h marked (index + 1) rest,
        keys_normalizeFields, h.child, everyObject_iff h value]
      simp only [Bool.and_eq_true, Bool.or_eq_true, List.contains_iff_mem, decide_eq_true_eq, or_assoc]

end

end Link

theorem inOwnOrder_of_names {properties : List (String × HostValue)}
    (h : ∀ property ∈ properties, arrayIndex property.1 = none) (hnodup : (properties.map Prod.fst).Nodup) :
    InOwnOrder properties := by
  rw [← ownOrder_eq_self h]
  exact inOwnOrder_ownOrder hnodup

theorem everyObject_pair {key key' : String} {first second : HostValue} (hkey : arrayIndex key = none)
    (hkey' : arrayIndex key' = none) (hne : key ≠ key') (hfirst : EveryObject InOwnOrder first)
    (hsecond : EveryObject InOwnOrder second) : EveryObject InOwnOrder (.object [(key, first), (key', second)]) := by
  rw [everyObject_object]
  constructor
  · apply inOwnOrder_of_names
    · simp [hkey, hkey']
    · simp [hne]
  · simp [hfirst, hsecond]

theorem everyObject_marker (key text : String) : EveryObject InOwnOrder (.object [(key, .string text)]) := by
  rw [everyObject_object]
  exact ⟨List.pairwise_singleton _ _, List.forall_mem_singleton.mpr trivial⟩

theorem everyObject_optionalString {p : List (String × HostValue) → Prop} (text : Option String) :
    EveryObject p (optionalString text) := by
  cases text <;> trivial

theorem everyObject_recordIdValue (recordId : ReplayIdentifier) : EveryObject InOwnOrder (recordIdValue recordId) := by
  have hkeys : arrayIndex "packageId" = none ∧ arrayIndex "moduleName" = none ∧ arrayIndex "entityName" = none := by
    decide
  rw [recordIdValue, everyObject_object]
  constructor
  · apply inOwnOrder_of_names
    · simp [hkeys]
    · simp
  · simp [everyObject_optionalString]

theorem everyObject_record {recordId : Option ReplayIdentifier} {entries : List (String × HostValue)}
    (h : ∀ entry ∈ entries, EveryObject InOwnOrder entry.2) : EveryObject InOwnOrder (recordValue recordId entries) := by
  rw [← recordObject_eq]
  obtain ⟨properties, hproperties⟩ := Untyped.recordObject_eq_object (recordId.map readRecordId) entries
  rw [hproperties, everyObject_object]
  constructor
  · cases recordId with
    | none =>
        obtain rfl := HostValue.object.inj hproperties
        exact inOwnOrder_fromEntries entries
    | some recordId =>
        obtain rfl := HostValue.object.inj hproperties
        exact inOwnOrder_ownOrder (KeyedMap.keys_nodup _)
  · intro property hproperty
    rcases Untyped.mem_recordObject hproperties hproperty with hmem | ⟨id, _, rfl⟩
    · exact h property hmem
    · exact everyObject_recordIdValue id

mutual

/-- The objects of a normal form list their properties in order. -/
theorem inOwnOrder_normalize (value : LedgerValue) : EveryObject InOwnOrder (normalizeReplayLedgerValue value) := by
  cases value with
  | optional part =>
      cases part with
      | none => trivial
      | some part => exact inOwnOrder_normalize part
  | list elements =>
      rw [normalizeReplayLedgerValue, everyObject_array]
      exact inOwnOrder_elements elements
  | textMap entries =>
      rw [normalizeReplayLedgerValue, everyObject_fromEntries]
      refine ⟨inOwnOrder_fromEntries _, fun entry hentry => ?_⟩
      exact inOwnOrder_entries entries entry (KeyedMap.mem_of_get_ofEntries (KeyedMap.get_eq_some.mpr hentry))
  | genMap entries =>
      rw [normalizeReplayLedgerValue, everyObject_array]
      exact inOwnOrder_pairs entries
  | record recordId fields => exact everyObject_record (inOwnOrder_fields 0 fields)
  | variant constructor_ part =>
      exact everyObject_pair (by decide) (by decide) (by decide) trivial (inOwnOrder_normalize part)
  | numeric value => exact everyObject_marker _ value
  | party value => exact everyObject_marker _ value
  | contractId value => exact everyObject_marker _ value
  | _ => trivial

theorem inOwnOrder_elements (elements : List LedgerValue) :
    ∀ item ∈ normalizeElements elements, EveryObject InOwnOrder item := by
  cases elements with
  | nil => simp [normalizeElements]
  | cons element rest =>
      rw [normalizeElements, List.forall_mem_cons]
      exact ⟨inOwnOrder_normalize element, inOwnOrder_elements rest⟩

theorem inOwnOrder_entries (entries : List (String × LedgerValue)) :
    ∀ entry ∈ normalizeEntries entries, EveryObject InOwnOrder entry.2 := by
  cases entries with
  | nil => simp [normalizeEntries]
  | cons entry rest =>
      rw [normalizeEntries, List.forall_mem_cons]
      exact ⟨inOwnOrder_normalize entry.2, inOwnOrder_entries rest⟩

theorem inOwnOrder_pairs (entries : List (LedgerValue × LedgerValue)) :
    ∀ item ∈ normalizePairs entries, EveryObject InOwnOrder item := by
  cases entries with
  | nil => simp [normalizePairs]
  | cons entry rest =>
      rw [normalizePairs, List.forall_mem_cons]
      exact ⟨everyObject_pair (by decide) (by decide) (by decide) (inOwnOrder_normalize entry.1)
        (inOwnOrder_normalize entry.2), inOwnOrder_pairs rest⟩

theorem inOwnOrder_fields (index : Nat) (fields : List (String × LedgerValue)) :
    ∀ entry ∈ normalizeFields index fields, EveryObject InOwnOrder entry.2 := by
  cases fields with
  | nil => simp [normalizeFields]
  | cons field rest =>
      rw [normalizeFields, List.forall_mem_cons]
      exact ⟨inOwnOrder_normalize field.2, inOwnOrder_fields (index + 1) rest⟩

end

/-! ## The second pass -/

theorem mimicsNothing_agrees :
    Agrees (fun key child => !child.mimics key) (fun _ => true) (fun key child => Untyped.mimics key child = false)
      Untyped.MimicsNothing where
  object _ := Iff.rfl
  child key value := by rw [mimics_normalize, Bool.not_eq_true']
  text key text := by simp [Untyped.mimics, Untyped.isOneofValue, Untyped.isFieldList]
  identifier recordId := by
    have hpart : ∀ key text, Untyped.mimics key (optionalString text) = false := by
      intro key text
      cases text <;> simp [optionalString, Untyped.mimics, Untyped.isOneofValue, Untyped.isFieldList]
    refine iff_of_true ⟨?_, ?_⟩ rfl
    · have hsum : recordIdMarkerKey ≠ "sum" := by decide
      have hfields : recordIdMarkerKey ≠ "fields" := by decide
      simp [Untyped.mimics, hsum, hfields]
    · rw [recordIdValue, everyObject_object, Untyped.MimicsNothing]
      simp [hpart, everyObject_optionalString]

theorem leavesNothingUndefined_agrees :
    Agrees (fun _ child => child.isPresent)
      (fun recordId => (nonEmpty recordId.packageId).isSome && (nonEmpty recordId.moduleName).isSome
        && (nonEmpty recordId.entityName).isSome)
      (fun _ child => child.isUndefined = false) Untyped.NothingUndefined where
  object _ := Iff.rfl
  child key value := by rw [isUndefined_normalize, Bool.not_eq_false']
  text _ _ := rfl
  identifier recordId := by
    have hpart : ∀ text : Option String, (optionalString text).isUndefined = !text.isSome := by
      intro text
      cases text <;> rfl
    have hobject : (recordIdValue (readRecordId recordId)).isUndefined = false := rfl
    rw [and_iff_right hobject, recordIdValue, everyObject_object, Untyped.NothingUndefined]
    simp [hpart, everyObject_optionalString, readRecordId, and_assoc]

/-- A normal form is its own normal form exactly if the value mimics no message and leaves nothing undefined.
Compared without undefined properties, it is exactly if the value mimics no message. -/
theorem normalizes_once_iff (value : LedgerValue) :
    (Untyped.normalizeReplayLedgerValue (Untyped.normalizeReplayLedgerValue value.envelope)
        = Untyped.normalizeReplayLedgerValue value.envelope ↔
      value.mimicsNothing = true ∧ value.leavesNothingUndefined = true) ∧
    ((Untyped.normalizeReplayLedgerValue (Untyped.normalizeReplayLedgerValue value.envelope)).compact
        = (Untyped.normalizeReplayLedgerValue value.envelope).compact ↔
      value.mimicsNothing = true) := by
  have hmimics := everyObject_iff mimicsNothing_agrees value
  have hundefined := everyObject_iff leavesNothingUndefined_agrees value
  rw [normalize_envelope, Untyped.fixed_iff (inOwnOrder_normalize value),
    Untyped.compact_normalize_eq_iff (inOwnOrder_normalize value)]
  exact ⟨and_congr hmimics hundefined, hmimics⟩

/-- A record with a field `sum` that holds a record is taken for a message of no value. -/
theorem sum_field_reinterpreted :
    Untyped.normalizeReplayLedgerValue (Untyped.normalizeReplayLedgerValue
        (LedgerValue.record none [("sum", .record none [("oneofKind", .text "unit")])]).envelope)
      ≠ Untyped.normalizeReplayLedgerValue
        (LedgerValue.record none [("sum", .record none [("oneofKind", .text "unit")])]).envelope := by
  rw [normalize_envelope]
  have hfirst : normalizeReplayLedgerValue (.record none [("sum", .record none [("oneofKind", .text "unit")])])
      = .object [("sum", .object [("oneofKind", .string "unit")])] := rfl
  have hsecond : Untyped.normalizeReplayLedgerValue (.object [("sum", .object [("oneofKind", .string "unit")])]) = .null := by
    rw [Untyped.normalizeReplayLedgerValue]
    simp [Untyped.readObjectProperty, lookup, Untyped.isOneofValue, Untyped.normalizeOneofValue]
  rw [hfirst, hsecond]
  simp

end CantonSdk.Debugger
