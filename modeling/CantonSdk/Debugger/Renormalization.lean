import CantonSdk.Debugger.UntypedNormalizer

/-!
# Values that the normalizer leaves as they are

No value is deeper once it is normalized, and a value that is taken for a message is less deep. So what is
taken for a message is never its own normal form. Everything else is, if no property is undefined.
-/

set_option linter.all false

namespace CantonSdk.Debugger.Untyped

open CantonSdk.Base HostValue

/-! ## Lists of values -/

theorem normalizeItems_eq (items : List HostValue) : normalizeItems items = items.map normalizeReplayLedgerValue := by
  induction items with
  | nil => rw [normalizeItems, List.map_nil]
  | cons item rest ih => rw [normalizeItems, ih, List.map_cons]

theorem normalizeProperties_eq (properties : List (String × HostValue)) :
    normalizeProperties properties
      = (properties.filter fun property => !property.2.isUndefined).map fun property =>
          (property.1, normalizeReplayLedgerValue property.2) := by
  induction properties with
  | nil => rw [normalizeProperties, List.filter_nil, List.map_nil]
  | cons property rest ih =>
      rw [normalizeProperties]
      cases hchild : property.2.isUndefined with
      | true => rw [List.filter_cons_of_neg (by simp [hchild]), if_pos rfl, ih]
      | false => rw [List.filter_cons_of_pos (by simp [hchild]), if_neg (by simp), ih, List.map_cons]

theorem normalizeEntries_eq (entries : List HostValue) :
    normalizeEntries entries
      = entries.map fun entry =>
          (readObjectString entry "key", normalizeReplayLedgerValue (readObjectProperty entry "value")) := by
  induction entries with
  | nil => rw [normalizeEntries, List.map_nil]
  | cons entry rest ih => rw [normalizeEntries, ih, List.map_cons]

theorem normalizePairs_eq (entries : List HostValue) :
    normalizePairs entries
      = entries.map fun entry => .object
          [("key", normalizeReplayLedgerValue (readObjectProperty entry "key")),
            ("value", normalizeReplayLedgerValue (readObjectProperty entry "value"))] := by
  induction entries with
  | nil => rw [normalizePairs, List.map_nil]
  | cons entry rest ih => rw [normalizePairs, ih, List.map_cons]

theorem mem_normalizeFields {fields : List HostValue} {index : Nat} {property : String × HostValue}
    (h : property ∈ normalizeFields index fields) :
    ∃ field ∈ fields, property.2 = normalizeReplayLedgerValue (readObjectProperty field "value") := by
  induction fields generalizing index with
  | nil =>
      rw [normalizeFields] at h
      cases h
  | cons field rest ih =>
      rw [normalizeFields] at h
      rcases List.mem_cons.mp h with rfl | hmem
      · exact ⟨field, List.mem_cons_self, rfl⟩
      · obtain ⟨other, hother, heq⟩ := ih hmem
        exact ⟨other, List.mem_cons_of_mem _ hother, heq⟩

/-! ## Depth -/

theorem depth_readObjectProperty_lt (properties : List (String × HostValue)) (propertyName : String) :
    (readObjectProperty (.object properties) propertyName).depth < (HostValue.object properties).depth := by
  rw [readObjectProperty]
  cases hlookup : lookup properties propertyName with
  | none =>
      rw [Option.getD_none, depth]
      exact Nat.succ_pos _
  | some value =>
      rw [Option.getD_some, depth]
      exact Nat.lt_succ_of_le (depthOfProperties_le.mp le_rfl _ (lookup_mem hlookup))

theorem depth_readObjectProperty_le (value : HostValue) (propertyName : String) :
    (readObjectProperty value propertyName).depth ≤ value.depth := by
  cases value with
  | object properties => exact (depth_readObjectProperty_lt properties propertyName).le
  | _ => exact Nat.zero_le _

theorem depth_of_mem_readArray {value item : HostValue} {propertyName : String}
    (h : item ∈ readArray value propertyName) : item.depth + 1 ≤ (readObjectProperty value propertyName).depth := by
  rw [readArray] at h
  split at h
  · next items hitems =>
      have hle := depthOfItems_le.mp le_rfl item h
      rw [hitems, depth]
      omega
  · cases h

theorem depth_fromEntries_le {entries : List (String × HostValue)} {bound : Nat}
    (h : ∀ entry ∈ entries, entry.2.depth ≤ bound) : (fromEntries entries).depth ≤ bound + 1 := by
  rw [fromEntries, depth_object_le]
  intro property hproperty
  rw [(perm_ownOrder _).mem_iff, ← KeyedMap.get_eq_some] at hproperty
  exact h _ (KeyedMap.mem_of_get_ofEntries hproperty)

theorem depth_recordIdValue (recordId : ReplayIdentifier) : (recordIdValue recordId).depth = 1 := by
  have hpart : ∀ text : Option String, (optionalString text).depth = 0 := by
    intro text
    cases text <;> rfl
  simp only [recordIdValue, depth, depthOfProperties, hpart, max_self]

theorem mem_recordObject {recordId : Option ReplayIdentifier} {entries properties : List (String × HostValue)}
    (h : recordObject recordId entries = .object properties) {property : String × HostValue}
    (hproperty : property ∈ properties) :
    property ∈ entries ∨ ∃ id ∈ recordId, property = (recordIdMarkerKey, recordIdValue id) := by
  unfold recordObject at h
  cases recordId with
  | none =>
      obtain rfl := HostValue.object.inj h
      rw [(perm_ownOrder _).mem_iff, ← KeyedMap.get_eq_some] at hproperty
      exact Or.inl (KeyedMap.mem_of_get_ofEntries hproperty)
  | some id =>
      obtain rfl := HostValue.object.inj h
      rw [(perm_ownOrder _).mem_iff, ← KeyedMap.get_eq_some, KeyedMap.get_set] at hproperty
      split at hproperty
      · next hkey =>
          refine Or.inr ⟨id, rfl, Prod.ext hkey ?_⟩
          exact (Option.some.inj hproperty).symm
      · have hmem := KeyedMap.mem_of_get_ofEntries hproperty
        rw [(perm_ownOrder _).mem_iff, ← KeyedMap.get_eq_some] at hmem
        exact Or.inl (KeyedMap.mem_of_get_ofEntries hmem)

theorem recordObject_eq_object (recordId : Option ReplayIdentifier) (entries : List (String × HostValue)) :
    ∃ properties, recordObject recordId entries = .object properties := by
  cases recordId with
  | none => exact ⟨_, rfl⟩
  | some id => exact ⟨_, rfl⟩

theorem depth_recordObject_le {recordId : Option ReplayIdentifier} {entries : List (String × HostValue)} {bound : Nat}
    (hid : recordId.isSome = true → 1 ≤ bound) (h : ∀ entry ∈ entries, entry.2.depth ≤ bound) :
    (recordObject recordId entries).depth ≤ bound + 1 := by
  obtain ⟨properties, hproperties⟩ := recordObject_eq_object recordId entries
  rw [hproperties, depth_object_le]
  intro property hproperty
  rcases mem_recordObject hproperties hproperty with hmem | ⟨id, hsome, rfl⟩
  · exact h property hmem
  · rw [depth_recordIdValue]
    exact hid (by rw [hsome]; rfl)

theorem depth_of_readRecordId {properties : List (String × HostValue)}
    (h : (readRecordId (.object properties)).isSome = true) : 2 ≤ (HostValue.object properties).depth := by
  have hlt := depth_readObjectProperty_lt properties "recordId"
  rw [readRecordId] at h
  cases hvalue : readObjectProperty (.object properties) "recordId" with
  | array items =>
      rw [hvalue, depth] at hlt
      omega
  | object members =>
      rw [hvalue, depth] at hlt
      omega
  | _ =>
      rw [hvalue] at h
      cases h

section Messages

variable {value : HostValue}

theorem depth_optional_le
    (ih : ∀ part : HostValue, sizeOf part ≤ sizeOf value → (normalizeReplayLedgerValue part).depth ≤ part.depth) :
    (normalizeOptionalValue value).depth ≤ value.depth := by
  cases value with
  | object properties =>
      rw [normalizeOptionalValue]
      exact (ih _ (sizeOf_readObjectProperty_le _ _)).trans (depth_readObjectProperty_le _ _)
  | _ => simp [normalizeOptionalValue, depth]

theorem depth_list_le
    (ih : ∀ part : HostValue, sizeOf part ≤ sizeOf value → (normalizeReplayLedgerValue part).depth ≤ part.depth) :
    (normalizeListValue value).depth ≤ value.depth + 1 := by
  have hle := depth_readObjectProperty_le value "elements"
  rw [normalizeListValue, normalizeItems_eq, depth_array_le, List.forall_mem_map]
  intro item hitem
  have hsize := sizeOf_readArray_le value "elements"
  have hmem := List.sizeOf_lt_of_mem hitem
  have hitemDepth := depth_of_mem_readArray hitem
  have := ih item (by omega)
  omega

theorem depth_textMap_le
    (ih : ∀ part : HostValue, sizeOf part ≤ sizeOf value → (normalizeReplayLedgerValue part).depth ≤ part.depth) :
    (normalizeTextMapValue value).depth ≤ value.depth + 1 := by
  have hle := depth_readObjectProperty_le value "entries"
  rw [normalizeTextMapValue, normalizeEntries_eq]
  apply depth_fromEntries_le
  rw [List.forall_mem_map]
  intro entry hentry
  have hsize := sizeOf_readArray_le value "entries"
  have hmem := List.sizeOf_lt_of_mem hentry
  have hentryDepth := depth_of_mem_readArray hentry
  have hchild := sizeOf_readObjectProperty_le entry "value"
  have hchildDepth := depth_readObjectProperty_le entry "value"
  have := ih (readObjectProperty entry "value") (by omega)
  dsimp only
  omega

theorem depth_genMap_le
    (ih : ∀ part : HostValue, sizeOf part ≤ sizeOf value → (normalizeReplayLedgerValue part).depth ≤ part.depth) :
    (normalizeGenMapValue value).depth ≤ value.depth + 1 := by
  have hle := depth_readObjectProperty_le value "entries"
  rw [normalizeGenMapValue, normalizePairs_eq, depth_array_le, List.forall_mem_map]
  intro entry hentry
  have hsize := sizeOf_readArray_le value "entries"
  have hmem := List.sizeOf_lt_of_mem hentry
  have hentryDepth := depth_of_mem_readArray hentry
  have hpart : ∀ name, (normalizeReplayLedgerValue (readObjectProperty entry name)).depth ≤ entry.depth := by
    intro name
    have hchild := sizeOf_readObjectProperty_le entry name
    exact (ih _ (by omega)).trans (depth_readObjectProperty_le entry name)
  have hkey := hpart "key"
  have hvalue := hpart "value"
  simp only [depth, depthOfProperties]
  omega

/-- The value of a message is no deeper than the message. -/
theorem depth_oneof_le {members : List (String × HostValue)}
    (ih : ∀ part : HostValue, sizeOf part < sizeOf (HostValue.object members) →
      (normalizeReplayLedgerValue part).depth ≤ part.depth) :
    (normalizeOneofValue (.object members)).depth ≤ (HostValue.object members).depth := by
  have hpart := depth_readObjectProperty_lt members
  have hparts : ∀ kind part, sizeOf part ≤ sizeOf (readObjectProperty (.object members) kind) →
      (normalizeReplayLedgerValue part).depth ≤ part.depth :=
    fun kind part hle => ih part (hle.trans_lt (sizeOf_readObjectProperty_lt members kind))
  have hscalar : ∀ kind, (readObjectProperty (.object members) kind).depth ≤ (HostValue.object members).depth :=
    fun kind => (hpart kind).le
  have hmarked : ∀ key kind, (HostValue.object [(key, readObjectProperty (.object members) kind)]).depth
      ≤ (HostValue.object members).depth := by
    intro key kind
    have := hpart kind
    rw [depth, depthOfProperties, depthOfProperties]
    omega
  rw [normalizeOneofValue]
  split
  · exact Nat.zero_le _
  · exact hscalar "bool"
  · exact hscalar "int64"
  · exact hscalar "date"
  · exact hscalar "timestamp"
  · exact hscalar "text"
  · exact hmarked numericMarkerKey "numeric"
  · exact hmarked partyMarkerKey "party"
  · exact hmarked contractIdMarkerKey "contractId"
  · exact (depth_optional_le (hparts "optional")).trans (hscalar "optional")
  · exact (depth_list_le (hparts "list")).trans (hpart "list")
  · exact (depth_textMap_le (hparts "textMap")).trans (hpart "textMap")
  · exact (depth_genMap_le (hparts "genMap")).trans (hpart "genMap")
  · exact (hparts "record" _ le_rfl).trans (hscalar "record")
  · have hvariant := hpart "variant"
    have hchild := depth_readObjectProperty_le (readObjectProperty (.object members) "variant") "value"
    have := hparts "variant" _ (sizeOf_readObjectProperty_le _ "value")
    simp only [depth, depthOfProperties] at hvariant ⊢
    omega
  · exact Nat.zero_le _
  · exact le_rfl

theorem depth_message_le (hmessage : isOneofValue value = true)
    (ih : ∀ part : HostValue, sizeOf part < sizeOf value → (normalizeReplayLedgerValue part).depth ≤ part.depth) :
    (normalizeOneofValue value).depth ≤ value.depth := by
  cases value with
  | object members => exact depth_oneof_le ih
  | array items => simp [normalizeOneofValue]
  | _ => simp [isOneofValue] at hmessage

end Messages

/-- Fields are no deeper than the record that lists them. -/
theorem depth_of_mem_normalizeFields {properties : List (String × HostValue)} {index : Nat}
    {property : String × HostValue}
    (ih : ∀ part : HostValue, sizeOf part < sizeOf (HostValue.object properties) →
      (normalizeReplayLedgerValue part).depth ≤ part.depth)
    (h : property ∈ normalizeFields index (readArray (.object properties) "fields")) :
    property.2.depth + 1 ≤ (readObjectProperty (.object properties) "fields").depth := by
  obtain ⟨field, hfield, heq⟩ := mem_normalizeFields h
  have hsize := sizeOf_readArray_lt properties "fields"
  have hmem := List.sizeOf_lt_of_mem hfield
  have hfieldDepth := depth_of_mem_readArray hfield
  have hchild := sizeOf_readObjectProperty_le field "value"
  have hchildDepth := depth_readObjectProperty_le field "value"
  have := ih (readObjectProperty field "value") (by omega)
  rw [heq]
  omega

/-- Normalization makes no value deeper. -/
theorem depth_normalize_le (value : HostValue) : (normalizeReplayLedgerValue value).depth ≤ value.depth := by
  induction hsize : sizeOf value using Nat.strong_induction_on generalizing value with
  | _ size ih =>
  subst hsize
  replace ih : ∀ part : HostValue, sizeOf part < sizeOf value →
      (normalizeReplayLedgerValue part).depth ≤ part.depth := fun part hlt => ih _ hlt part rfl
  cases value with
  | array items =>
      have hdepth : (HostValue.array items).depth = depthOfItems items + 1 := rfl
      rw [normalizeReplayLedgerValue, normalizeItems_eq, hdepth, depth_array_le, List.forall_mem_map]
      intro item hitem
      have hlt := List.sizeOf_lt_of_mem hitem
      refine (ih item ?_).trans (depthOfItems_le.mp le_rfl item hitem)
      rw [HostValue.array.sizeOf_spec]
      omega
  | object properties =>
      rw [normalizeReplayLedgerValue]
      split
      · next hsum =>
          have hpart := depth_readObjectProperty_lt properties "sum"
          have hlt := sizeOf_readObjectProperty_lt properties "sum"
          exact (depth_message_le hsum fun part hpartLt => ih part (hpartLt.trans hlt)).trans hpart.le
      · split
        · have hpart := depth_readObjectProperty_lt properties "fields"
          have hdepth : (HostValue.object properties).depth = depthOfProperties properties + 1 := rfl
          rw [hdepth]
          apply depth_recordObject_le
          · intro hid
            have := depth_of_readRecordId hid
            omega
          · intro entry hentry
            have := depth_of_mem_normalizeFields ih hentry
            omega
        · have hdepth : (HostValue.object properties).depth = depthOfProperties properties + 1 := rfl
          rw [hdepth]
          apply depth_fromEntries_le
          rw [normalizeProperties_eq, List.forall_mem_map]
          intro property hproperty
          have hmem := List.mem_of_mem_filter hproperty
          have hlt := List.sizeOf_lt_of_mem hmem
          refine (ih property.2 ?_).trans (depthOfProperties_le.mp le_rfl property hmem)
          obtain ⟨key, child⟩ := property
          rw [HostValue.object.sizeOf_spec]
          rw [Prod.mk.sizeOf_spec] at hlt
          dsimp only
          omega
  | _ =>
      rw [normalizeReplayLedgerValue]
      all_goals simp

/-! ## What is taken for a message -/

/-- A property for which the object that has it is taken for a message. -/
def mimics (key : String) (child : HostValue) : Bool :=
  (decide (key = "sum") && isOneofValue child) || (decide (key = "fields") && isFieldList child)

def MimicsNothing (properties : List (String × HostValue)) : Prop :=
  ∀ property ∈ properties, mimics property.1 property.2 = false

def NothingUndefined (properties : List (String × HostValue)) : Prop :=
  ∀ property ∈ properties, property.2.isUndefined = false

section Objects

variable {properties : List (String × HostValue)}

theorem readObjectProperty_of_mem (hnodup : (properties.map Prod.fst).Nodup) {property : String × HostValue}
    (h : property ∈ properties) : readObjectProperty (.object properties) property.1 = property.2 := by
  rw [readObjectProperty, lookup_of_mem hnodup h, Option.getD_some]

theorem mem_of_readObjectProperty {propertyName : String}
    (h : (readObjectProperty (.object properties) propertyName).isUndefined = false) :
    (propertyName, readObjectProperty (.object properties) propertyName) ∈ properties := by
  rw [readObjectProperty] at h ⊢
  cases hlookup : lookup properties propertyName with
  | none =>
      rw [hlookup] at h
      cases h
  | some value => exact lookup_mem hlookup

theorem not_undefined_of_isOneofValue {value : HostValue} (h : isOneofValue value = true) :
    value.isUndefined = false := by
  cases value with
  | array items => rfl
  | object members => rfl
  | _ => cases h

theorem isOneofValue_of_isFieldList {value : HostValue} (h : isFieldList value = true) : isOneofValue value = true := by
  cases value with
  | array items => rfl
  | _ => cases h

/-- What mimics nothing is normalized property by property. -/
theorem normalize_of_mimicsNothing (h : MimicsNothing properties) :
    normalizeReplayLedgerValue (.object properties) = .fromEntries (normalizeProperties properties) := by
  rw [normalizeReplayLedgerValue, if_neg, if_neg]
  · intro hfields
    have hmimics := h _ (mem_of_readObjectProperty (not_undefined_of_isOneofValue (isOneofValue_of_isFieldList hfields)))
    simp [mimics, hfields] at hmimics
  · intro hsum
    have hmimics := h _ (mem_of_readObjectProperty (not_undefined_of_isOneofValue hsum))
    simp [mimics, hsum] at hmimics

/-- Properties in order stay in order. -/
theorem normalize_ordered (h : MimicsNothing properties) (horder : InOwnOrder properties) :
    normalizeReplayLedgerValue (.object properties) = .object (normalizeProperties properties) := by
  have hordered : InOwnOrder (normalizeProperties properties) := by
    rw [normalizeProperties_eq]
    apply (horder.filter fun property => !property.2.isUndefined).of_keys
    rw [List.map_map]
    rfl
  rw [normalize_of_mimicsNothing h, fromEntries, KeyedMap.entries_ofEntries hordered.nodup,
    ownOrder_of_inOwnOrder hordered]

theorem depth_normalize_message (hsum : isOneofValue (readObjectProperty (.object properties) "sum") = true) :
    (normalizeReplayLedgerValue (.object properties)).depth < (HostValue.object properties).depth := by
  rw [normalizeReplayLedgerValue, if_pos hsum]
  exact (depth_message_le hsum fun part _ => depth_normalize_le part).trans_lt (depth_readObjectProperty_lt _ _)

theorem mem_compactProperties {property : String × HostValue} (h : property ∈ properties)
    (hdefined : property.2.isUndefined = false) : (property.1, compact property.2) ∈ compactProperties properties := by
  rw [compactProperties_eq]
  exact List.mem_map_of_mem (List.mem_filter.mpr ⟨h, by rw [hdefined]; rfl⟩)

theorem mem_of_mem_compactProperties {property : String × HostValue} (h : property ∈ compactProperties properties) :
    ∃ child, (property.1, child) ∈ properties ∧ property.2 = compact child := by
  rw [compactProperties_eq] at h
  obtain ⟨other, hother, rfl⟩ := List.mem_map.mp h
  exact ⟨other.2, List.mem_of_mem_filter hother, rfl⟩

/-- A list of fields is deeper than what a record makes of it. -/
theorem compact_normalize_fields_ne (hsum : isOneofValue (readObjectProperty (.object properties) "sum") = false)
    (hfields : isFieldList (readObjectProperty (.object properties) "fields") = true) :
    compact (normalizeReplayLedgerValue (.object properties)) ≠ compact (.object properties) := by
  intro heq
  have hdefined := not_undefined_of_isOneofValue (isOneofValue_of_isFieldList hfields)
  have hmem := mem_compactProperties (mem_of_readObjectProperty hdefined) hdefined
  rw [normalizeReplayLedgerValue, if_neg (by rw [hsum]; simp), if_pos hfields] at heq
  obtain ⟨record, hrecord⟩ := recordObject_eq_object (readRecordId (.object properties))
    (normalizeFields 0 (readArray (.object properties) "fields"))
  rw [hrecord, compact, compact] at heq
  rw [← HostValue.object.inj heq] at hmem
  obtain ⟨child, hchild, hsame⟩ := mem_of_mem_compactProperties hmem
  have hdepth : child.depth = (readObjectProperty (.object properties) "fields").depth := by
    have := congrArg depth hsame
    dsimp only at this
    rw [depth_compact, depth_compact] at this
    exact this.symm
  rcases mem_recordObject hrecord hchild with hfield | ⟨id, _, hid⟩
  · have hlt := depth_of_mem_normalizeFields (fun part _ => depth_normalize_le part) hfield
    dsimp only at hlt
    omega
  · have hkey : "fields" = recordIdMarkerKey := congrArg Prod.fst hid
    exact absurd hkey (by decide)

/-- What is taken for a message is no normal form. -/
theorem compact_normalize_ne (h : ¬ MimicsNothing properties) (hnodup : (properties.map Prod.fst).Nodup) :
    compact (normalizeReplayLedgerValue (.object properties)) ≠ compact (.object properties) := by
  by_cases hsum : isOneofValue (readObjectProperty (.object properties) "sum") = true
  · intro heq
    have hlt := depth_normalize_message hsum
    have := congrArg depth heq
    rw [depth_compact, depth_compact] at this
    omega
  · apply compact_normalize_fields_ne (by simpa using hsum)
    by_contra hfields
    apply h
    intro property hproperty
    have hread := readObjectProperty_of_mem hnodup hproperty
    obtain ⟨key, child⟩ := property
    dsimp only at hread ⊢
    rw [mimics, Bool.or_eq_false_iff, Bool.and_eq_false_imp, Bool.and_eq_false_imp, decide_eq_true_iff,
      decide_eq_true_iff]
    constructor
    · rintro rfl
      rw [← hread]
      simpa using hsum
    · rintro rfl
      rw [← hread]
      simpa using hfields

end Objects

/-! ## Normal forms -/

theorem map_filter_map_eq {α β : Type} {list : List α} {d : α → Bool} {f : α → α} {g : α → β} :
    ((list.map f).filter d).map g = list.map g ↔ ∀ a ∈ list, d (f a) = true ∧ g (f a) = g a := by
  constructor
  · intro h
    have hlength := congrArg List.length h
    rw [List.length_map, List.length_map, ← @List.length_map _ _ list f, List.length_filter_eq_length_iff,
      List.forall_mem_map] at hlength
    rw [List.filter_eq_self.mpr (List.forall_mem_map.mpr hlength), List.map_map, List.map_inj_left] at h
    exact fun a ha => ⟨hlength a ha, h a ha⟩
  · intro h
    rw [List.filter_eq_self.mpr (List.forall_mem_map.mpr fun a ha => (h a ha).1), List.map_map, List.map_inj_left]
    exact fun a ha => (h a ha).2

/-- Compared without undefined properties, a value is its own normal form exactly if nothing in it is taken for a
message. -/
theorem compact_normalize_eq_iff {value : HostValue} (horder : EveryObject InOwnOrder value) :
    compact (normalizeReplayLedgerValue value) = compact value ↔ EveryObject MimicsNothing value := by
  induction hsize : sizeOf value using Nat.strong_induction_on generalizing value with
  | _ size ih =>
  subst hsize
  cases value with
  | array items =>
      rw [everyObject_array] at horder ⊢
      rw [normalizeReplayLedgerValue, compact, compact, compactItems_eq, compactItems_eq, normalizeItems_eq, List.map_map,
        HostValue.array.injEq, List.map_inj_left]
      refine forall₂_congr fun item hitem => ?_
      have hlt := List.sizeOf_lt_of_mem hitem
      refine ih _ ?_ (horder item hitem) rfl
      rw [HostValue.array.sizeOf_spec]
      omega
  | object properties =>
      rw [everyObject_object] at horder ⊢
      obtain ⟨horder, hbelow⟩ := horder
      by_cases hmimics : MimicsNothing properties
      · have hchild : ∀ property ∈ properties,
            (compact (normalizeReplayLedgerValue property.2) = compact property.2 ↔
              EveryObject MimicsNothing property.2) := by
          intro property hproperty
          have hlt := List.sizeOf_lt_of_mem hproperty
          refine ih _ ?_ (hbelow property hproperty) rfl
          rw [HostValue.object.sizeOf_spec]
          obtain ⟨key, child⟩ := property
          rw [Prod.mk.sizeOf_spec] at hlt
          dsimp only
          omega
        rw [normalize_ordered hmimics horder, compact, compact, HostValue.object.injEq, compactProperties_eq,
          compactProperties_eq, normalizeProperties_eq, map_filter_map_eq]
        constructor
        · intro h
          refine ⟨hmimics, fun property hproperty => ?_⟩
          cases hundefined : property.2.isUndefined with
          | true =>
              cases hvalue : property.2 with
              | undefined => trivial
              | _ => simp [hvalue, isUndefined] at hundefined
          | false =>
              have hsame := (h property (List.mem_filter.mpr ⟨hproperty, by rw [hundefined]; rfl⟩)).2
              exact (hchild property hproperty).mp (Prod.ext_iff.mp hsame).2
        · intro h property hproperty
          obtain ⟨hmem, hdefined⟩ := List.mem_filter.mp hproperty
          have hsame := (hchild property hmem).mpr (h.2 property hmem)
          refine ⟨?_, Prod.ext rfl hsame⟩
          dsimp only
          rw [← isUndefined_compact, hsame, isUndefined_compact]
          exact hdefined
      · exact iff_of_false (compact_normalize_ne hmimics horder.nodup) fun h => hmimics h.1
  | _ => simp [normalizeReplayLedgerValue, EveryObject]

/-- Where nothing is taken for a message, a value is its own normal form exactly if nothing in it is undefined. -/
theorem normalize_eq_self_iff {value : HostValue} (horder : EveryObject InOwnOrder value)
    (hmimics : EveryObject MimicsNothing value) :
    normalizeReplayLedgerValue value = value ↔ EveryObject NothingUndefined value := by
  induction hsize : sizeOf value using Nat.strong_induction_on generalizing value with
  | _ size ih =>
  subst hsize
  cases value with
  | array items =>
      rw [everyObject_array] at horder hmimics ⊢
      have hitems : normalizeReplayLedgerValue (.array items) = .array items ↔
          items.map normalizeReplayLedgerValue = items.map id := by
        rw [normalizeReplayLedgerValue, normalizeItems_eq, HostValue.array.injEq, List.map_id]
      rw [hitems, List.map_inj_left]
      refine forall₂_congr fun item hitem => ?_
      have hlt := List.sizeOf_lt_of_mem hitem
      refine ih _ ?_ (horder item hitem) (hmimics item hitem) rfl
      rw [HostValue.array.sizeOf_spec]
      omega
  | object properties =>
      rw [everyObject_object] at horder hmimics ⊢
      have hchild : ∀ property ∈ properties, (normalizeReplayLedgerValue property.2 = property.2 ↔
          EveryObject NothingUndefined property.2) := by
        intro property hproperty
        have hlt := List.sizeOf_lt_of_mem hproperty
        refine ih _ ?_ (horder.2 property hproperty) (hmimics.2 property hproperty) rfl
        rw [HostValue.object.sizeOf_spec]
        obtain ⟨key, child⟩ := property
        rw [Prod.mk.sizeOf_spec] at hlt
        dsimp only
        omega
      rw [normalize_ordered hmimics.1 horder.1, HostValue.object.injEq, normalizeProperties_eq]
      constructor
      · intro h
        have hlength := congrArg List.length h
        rw [List.length_map, List.length_filter_eq_length_iff] at hlength
        have hdefined : NothingUndefined properties := fun property hproperty => by
          simpa using hlength property hproperty
        rw [List.filter_eq_self.mpr hlength] at h
        refine ⟨hdefined, fun property hproperty => (hchild property hproperty).mp ?_⟩
        have hsame := List.map_inj_left.mp (h.trans (List.map_id properties).symm) property hproperty
        exact (Prod.ext_iff.mp hsame).2
      · intro h
        have hdefined : ∀ property ∈ properties, (!property.2.isUndefined) = true := fun property hproperty => by
          rw [h.1 property hproperty]
          rfl
        rw [List.filter_eq_self.mpr hdefined]
        refine (List.map_inj_left.mpr fun property hproperty => ?_).trans (List.map_id properties)
        exact Prod.ext rfl ((hchild property hproperty).mpr (h.2 property hproperty))
  | _ => simp [normalizeReplayLedgerValue, EveryObject]

/-- A value is its own normal form exactly if nothing in it is taken for a message and nothing is undefined. -/
theorem fixed_iff {value : HostValue} (horder : EveryObject InOwnOrder value) :
    normalizeReplayLedgerValue value = value ↔
      EveryObject MimicsNothing value ∧ EveryObject NothingUndefined value := by
  constructor
  · intro h
    have hmimics := (compact_normalize_eq_iff horder).mp (congrArg compact h)
    exact ⟨hmimics, (normalize_eq_self_iff horder hmimics).mp h⟩
  · intro h
    exact (normalize_eq_self_iff horder h.1).mpr h.2

end CantonSdk.Debugger.Untyped
