import CantonSdk.Base.Approximation
import CantonSdk.DamlValues.Meaning

/-!
# Enough fuel

References may stand for references without end, so decoding and denotation take fuel. With more of it
neither changes what it has given. A source decodes to a value, and a value denotes a meaning, when some
fuel is enough.
-/

set_option linter.all false

namespace CantonSdk.DamlValues

open CantonSdk.Base CantonSdk.Query.Canonical CantonSdk.Query.Grpc

/-- `DamlValueConverter.decode` returns a value. -/
def Decodes (registry : Registry) (source : DamlValueSource) (descriptor : DamlTypeDescriptor) (path : String)
    (decoded : DamlValue) : Prop :=
  ∃ fuel, decodeDamlValue registry fuel source descriptor path = .ok decoded

/-- A value of a type, and what it denotes. -/
def Denotes (registry : Registry) (value : Value) (descriptor : DamlTypeDescriptor) (meaning : Meaning) : Prop :=
  ∃ fuel, denote registry fuel value descriptor = some meaning

/-! ## Decoding -/

section Decoding

variable {decode decode' : DamlValueSource → DamlTypeDescriptor → String → Decoded DamlValue}
  (h : ∀ source descriptor path, Approximates (decode source descriptor path) (decode' source descriptor path))

include h

theorem required_approximates {value : Option Value} {descriptor : DamlTypeDescriptor} {path : String} :
    Approximates (decodeRequiredProtobufValue decode value descriptor path)
      (decodeRequiredProtobufValue decode' value descriptor path) := by
  cases value with
  | none => exact .refl _
  | some value => exact h _ _ _

theorem labelledField_approximates {fields : List (String × Option Value)} {path : String}
    (field : RecordField DamlTypeDescriptor) :
    Approximates (decodeLabelledField decode fields path field) (decodeLabelledField decode' fields path field) := by
  rw [decodeLabelledField, decodeLabelledField]
  split
  · exact .refl _
  · exact (required_approximates h).andThen

theorem protobufRecord_approximates {fields : List (String × Option Value)}
    {descriptorFields : List (RecordField DamlTypeDescriptor)} {path : String} :
    Approximates (decodeProtobufRecord decode fields descriptorFields path)
      (decodeProtobufRecord decode' fields descriptorFields path) := by
  rw [decodeProtobufRecord, decodeProtobufRecord]
  split
  · split
    · exact (Approximates.mapM (labelledField_approximates h)).andThen
    · exact .refl _
  · split
    · split
      · exact .refl _
      · have hfields : ∀ field : RecordField DamlTypeDescriptor × (String × Option Value),
            Approximates (decodePositionalField decode path field) (decodePositionalField decode' path field) :=
          fun field => (required_approximates h).andThen
        exact (Approximates.mapM hfields).andThen
    · exact .refl _

theorem protobufValue_approximates {value : Value} {descriptor : DamlTypeDescriptor} {path : String} :
    Approximates (decodeProtobufValue decode value descriptor path)
      (decodeProtobufValue decode' value descriptor path) := by
  cases value with
  | optional value =>
      cases descriptor with
      | optional element =>
          cases value with
          | none => exact .refl _
          | some value => exact h _ _ _
      | _ => exact .refl _
  | list elements =>
      cases descriptor with
      | list element => exact (Approximates.mapIndexed fun _ _ => h _ _ _).andThen
      | _ => exact .refl _
  | textMap entries =>
      cases descriptor with
      | textMap element =>
          have hentries : ∀ index entry, Approximates (decodeTextMapEntry decode element path index entry)
              (decodeTextMapEntry decode' element path index entry) :=
            fun index entry => (required_approximates h).andThen
          exact (Approximates.mapIndexed hentries).andThen
      | _ => exact .refl _
  | genMap entries =>
      cases descriptor with
      | genMap key element =>
          have hentries : ∀ index entry, Approximates (decodeGenMapEntry decode key element path index entry)
              (decodeGenMapEntry decode' key element path index entry) :=
            fun index entry => (required_approximates h).bind fun _ => (required_approximates h).andThen
          exact (Approximates.mapIndexed hentries).andThen
      | _ => exact .refl _
  | record fields =>
      cases descriptor with
      | record descriptorFields => exact protobufRecord_approximates h
      | _ => exact .refl _
  | variant constructorName payload =>
      cases descriptor with
      | variant constructors =>
          rw [decodeProtobufValue, decodeProtobufValue]
          split
          · exact .refl _
          · exact (required_approximates h).andThen
      | _ => exact .refl _
  | _ => exact .refl _

theorem jsonRecord_approximates {value : QueryValue} {descriptorFields : List (RecordField DamlTypeDescriptor)}
    {path : String} :
    Approximates (decodeJsonRecord decode value descriptorFields path)
      (decodeJsonRecord decode' value descriptorFields path) := by
  have hitems : ∀ field : RecordField DamlTypeDescriptor × QueryValue,
      Approximates (decodeJsonItemField decode path field) (decodeJsonItemField decode' path field) :=
    fun field => (h _ _ _).andThen
  have hfields : ∀ (record : List (String × QueryValue)) (field : RecordField DamlTypeDescriptor),
      Approximates (decodeJsonField decode record path field) (decodeJsonField decode' record path field) := by
    intro record field
    rw [decodeJsonField, decodeJsonField]
    split
    · exact .refl _
    · exact (h _ _ _).andThen
  unfold decodeJsonRecord
  split
  · split
    · exact .refl _
    · exact (Approximates.mapM hitems).andThen
  · refine .next fun record => ?_
    split
    · exact .refl _
    · exact (Approximates.mapM (hfields record)).andThen

theorem jsonVariant_approximates {value : QueryValue} {constructors : List (VariantConstructor DamlTypeDescriptor)}
    {path : String} :
    Approximates (decodeJsonVariant decode value constructors path)
      (decodeJsonVariant decode' value constructors path) := by
  refine .next fun envelope => .next fun tag => ?_
  split
  · exact .refl _
  · split
    · exact .refl _
    · exact (h _ _ _).andThen

theorem jsonValue_approximates {value : QueryValue} {descriptor : DamlTypeDescriptor} {path : String} :
    Approximates (decodeJsonValue decode value descriptor path) (decodeJsonValue decode' value descriptor path) := by
  cases descriptor with
  | optional element =>
      cases value with
      | null => exact .refl _
      | _ => exact h _ _ _
  | list element => exact .next fun items => (Approximates.mapIndexed fun _ _ => h _ _ _).andThen
  | textMap element => exact .next fun record => (Approximates.mapM fun entry => (h _ _ _).andThen).andThen
  | genMap key element =>
      have hentries : ∀ index entry, Approximates (decodeJsonGenMapEntry decode key element path index entry)
          (decodeJsonGenMapEntry decode' key element path index entry) := by
        intro index entry
        refine .next fun pair => ?_
        split
        · exact (h _ _ _).bind fun _ => (h _ _ _).andThen
        · exact .refl _
      exact .next fun items => (Approximates.mapIndexed hentries).andThen
  | record descriptorFields => exact jsonRecord_approximates h
  | variant constructors => exact jsonVariant_approximates h
  | _ => exact .refl _

end Decoding

theorem keys_of_decodedEntries {decode : DamlValueSource → DamlTypeDescriptor → String → Decoded DamlValue}
    {element : DamlTypeDescriptor} {path : String} {index : Nat}
    {entries : List (String × Option Value)} {decoded : List (String × DamlValue)}
    (hdecoded : mapIndexed (decodeTextMapEntry decode element path) index entries = .ok decoded) :
    decoded.map Prod.fst = entries.map Prod.fst := by
  induction entries generalizing index decoded with
  | nil =>
      cases hdecoded
      rfl
  | cons entry rest ih =>
      rw [mapIndexed] at hdecoded
      obtain ⟨first, hfirst, hdecoded⟩ := bind_eq_ok.mp hdecoded
      obtain ⟨others, hothers, hdecoded⟩ := bind_eq_ok.mp hdecoded
      obtain ⟨value, _, hvalue⟩ := bind_eq_ok.mp hfirst
      cases hdecoded
      cases hvalue
      rw [List.map_cons, List.map_cons, ih hothers]

theorem decode_approximates (registry : Registry) (fuel : Nat) (source : DamlValueSource)
    (descriptor : DamlTypeDescriptor) (path : String) :
    Approximates (decodeDamlValue registry fuel source descriptor path)
      (decodeDamlValue registry (fuel + 1) source descriptor path) := by
  induction fuel generalizing source descriptor path with
  | zero => exact .error _ _
  | succ fuel ih =>
      cases descriptor with
      | namedReference identity typeArguments =>
          rw [decodeDamlValue, decodeDamlValue]
          split
          · exact .refl _
          · exact ih _ _ _
      | _ =>
          cases source with
          | protobuf value => exact protobufValue_approximates ih
          | json value => exact jsonValue_approximates ih

/-- Two sources that decode do so with one fuel, as large as one likes. -/
theorem decodes_together {registry : Registry} {source source' : DamlValueSource} {descriptor : DamlTypeDescriptor}
    {path : String} {decoded decoded' : DamlValue} (h : Decodes registry source descriptor path decoded)
    (h' : Decodes registry source' descriptor path decoded') (least : Nat) :
    ∃ fuel, least ≤ fuel ∧ decodeDamlValue registry fuel source descriptor path = .ok decoded ∧
      decodeDamlValue registry fuel source' descriptor path = .ok decoded' := by
  obtain ⟨fuel, hfuel⟩ := h
  obtain ⟨fuel', hfuel'⟩ := h'
  exact exists_common (decode_approximates registry · source descriptor path)
    (decode_approximates registry · source' descriptor path) hfuel hfuel' least

/-! ## Denotation -/

theorem readAll_mono {α β : Type} {read read' : α → Option β} {list : List α} {results : List β}
    (h : ∀ entry ∈ list, ∀ value, read entry = some value → read' entry = some value)
    (hread : readAll read list = some results) : readAll read' list = some results := by
  rw [readAll_eq_some] at hread ⊢
  induction hread with
  | nil => exact .nil
  | cons hfirst _ ih =>
      rw [List.forall_mem_cons] at h
      exact .cons (h.1 _ hfirst) (ih h.2)

section Denotation

variable {denote denote' : Value → DamlTypeDescriptor → Option Meaning}
  (h : ∀ value descriptor meaning, denote value descriptor = some meaning → denote' value descriptor = some meaning)

include h

theorem part_mono {part : Option Value} {descriptor : DamlTypeDescriptor} {meaning : Meaning}
    (hmeaning : part.bind (denote · descriptor) = some meaning) : part.bind (denote' · descriptor) = some meaning := by
  obtain ⟨value, rfl, hvalue⟩ := Option.bind_eq_some_iff.mp hmeaning
  exact h _ _ _ hvalue

theorem denoteValue_mono {value : Value} {descriptor : DamlTypeDescriptor} {meaning : Meaning}
    (hmeaning : denoteValue denote value descriptor = some meaning) :
    denoteValue denote' value descriptor = some meaning := by
  unfold denoteValue at hmeaning
  split at hmeaning
  case h_11 =>
    obtain ⟨inner, hinner, rfl⟩ := Option.map_eq_some_iff.mp hmeaning
    exact Option.map_eq_some_iff.mpr ⟨inner, h _ _ _ hinner, rfl⟩
  case h_12 =>
    obtain ⟨meanings, hmeanings, rfl⟩ := Option.map_eq_some_iff.mp hmeaning
    exact Option.map_eq_some_iff.mpr ⟨meanings, readAll_mono (fun _ _ _ => h _ _ _) hmeanings, rfl⟩
  case h_13 =>
    rw [Option.ite_none_right_eq_some] at hmeaning
    obtain ⟨hnodup, hmeaning⟩ := hmeaning
    obtain ⟨meanings, hmeanings, rfl⟩ := Option.map_eq_some_iff.mp hmeaning
    refine (if_pos hnodup).trans (Option.map_eq_some_iff.mpr ⟨meanings, readAll_mono ?_ hmeanings, rfl⟩)
    intro entry _ value hvalue
    obtain ⟨inner, hinner, rfl⟩ := Option.map_eq_some_iff.mp hvalue
    exact Option.map_eq_some_iff.mpr ⟨inner, part_mono h hinner, rfl⟩
  case h_14 =>
    obtain ⟨meanings, hmeanings, rfl⟩ := Option.map_eq_some_iff.mp hmeaning
    refine Option.map_eq_some_iff.mpr ⟨meanings, readAll_mono ?_ hmeanings, rfl⟩
    intro entry _ value hvalue
    obtain ⟨key, hkey, hrest⟩ := Option.bind_eq_some_iff.mp hvalue
    obtain ⟨inner, hinner, rfl⟩ := Option.map_eq_some_iff.mp hrest
    exact Option.bind_eq_some_iff.mpr
      ⟨key, part_mono h hkey, Option.map_eq_some_iff.mpr ⟨inner, part_mono h hinner, rfl⟩⟩
  case h_15 =>
    obtain ⟨values, hvalues, hmeaning⟩ := Option.bind_eq_some_iff.mp hmeaning
    obtain ⟨meanings, hmeanings, rfl⟩ := Option.map_eq_some_iff.mp hmeaning
    refine Option.bind_eq_some_iff.mpr ⟨values, hvalues, Option.map_eq_some_iff.mpr ⟨meanings, ?_, rfl⟩⟩
    exact readAll_mono (fun _ _ _ => part_mono h) hmeanings
  case h_16 =>
    obtain ⟨found, hfound, hmeaning⟩ := Option.bind_eq_some_iff.mp hmeaning
    obtain ⟨inner, hinner, rfl⟩ := Option.map_eq_some_iff.mp hmeaning
    exact Option.bind_eq_some_iff.mpr
      ⟨found, hfound, Option.map_eq_some_iff.mpr ⟨inner, part_mono h hinner, rfl⟩⟩
  case h_18 => cases hmeaning
  all_goals exact hmeaning

end Denotation

theorem denote_succ {registry : Registry} {fuel : Nat} {value : Value} {descriptor : DamlTypeDescriptor}
    {meaning : Meaning} (h : denote registry fuel value descriptor = some meaning) :
    denote registry (fuel + 1) value descriptor = some meaning := by
  induction fuel generalizing value descriptor meaning with
  | zero => cases h
  | succ fuel ih =>
      cases descriptor with
      | namedReference identity typeArguments =>
          obtain ⟨resolved, hresolved, hvalue⟩ := Option.bind_eq_some_iff.mp h
          exact Option.bind_eq_some_iff.mpr ⟨resolved, hresolved, ih hvalue⟩
      | _ => exact denoteValue_mono (fun _ _ _ => ih) h

theorem denote_of_le {registry : Registry} {fuel more : Nat} {value : Value} {descriptor : DamlTypeDescriptor}
    {meaning : Meaning} (hle : fuel ≤ more) (h : denote registry fuel value descriptor = some meaning) :
    denote registry more value descriptor = some meaning := by
  induction hle with
  | refl => exact h
  | step _ ih => exact denote_succ ih

/-- A value denotes one meaning at a type. -/
theorem Denotes.unique {registry : Registry} {value : Value} {descriptor : DamlTypeDescriptor}
    {meaning meaning' : Meaning} (h : Denotes registry value descriptor meaning)
    (h' : Denotes registry value descriptor meaning') : meaning = meaning' := by
  obtain ⟨fuel, hfuel⟩ := h
  obtain ⟨fuel', hfuel'⟩ := h'
  have hleft := denote_of_le (Nat.le_max_left fuel fuel') hfuel
  have hright := denote_of_le (Nat.le_max_right fuel fuel') hfuel'
  exact Option.some.inj (hleft.symm.trans hright)

/-! ## Meanings of compound values -/

theorem denotes_iff {registry : Registry} {value : Value} {descriptor : DamlTypeDescriptor} {meaning : Meaning}
    (hdescriptor : ∀ identity typeArguments, descriptor ≠ .namedReference identity typeArguments) :
    Denotes registry value descriptor meaning ↔
      ∃ fuel, denoteValue (denote registry fuel) value descriptor = some meaning := by
  have hsucc : ∀ fuel, denote registry (fuel + 1) value descriptor = denoteValue (denote registry fuel) value descriptor := by
    intro fuel
    cases descriptor with
    | namedReference identity typeArguments => exact absurd rfl (hdescriptor identity typeArguments)
    | _ => rfl
  constructor
  · intro h
    obtain ⟨fuel, hfuel⟩ := h
    cases fuel with
    | zero => cases hfuel
    | succ fuel => exact ⟨fuel, (hsucc fuel).symm.trans hfuel⟩
  · intro h
    obtain ⟨fuel, hfuel⟩ := h
    exact ⟨fuel + 1, (hsucc fuel).trans hfuel⟩

theorem denotes_named {registry : Registry} {value : Value} {identity : DamlTypeIdentity}
    {typeArguments : List DamlTypeDescriptor} {resolved : DamlTypeDescriptor} {meaning : Meaning}
    (hresolved : registry identity typeArguments = some resolved) :
    Denotes registry value (.namedReference identity typeArguments) meaning ↔ Denotes registry value resolved meaning := by
  constructor
  · intro h
    obtain ⟨fuel, hfuel⟩ := h
    cases fuel with
    | zero => cases hfuel
    | succ fuel =>
        rw [denote, hresolved] at hfuel
        exact ⟨fuel, hfuel⟩
  · intro h
    obtain ⟨fuel, hfuel⟩ := h
    refine ⟨fuel + 1, ?_⟩
    rw [denote, hresolved]
    exact hfuel

/-- With enough fuel a list is read as its entries are, each with some fuel. -/
theorem exists_readAll {α β : Type} {read : Nat → α → Option β} {list : List α} {results : List β}
    (hmono : ∀ {fuel more entry value}, fuel ≤ more → read fuel entry = some value → read more entry = some value) :
    (∃ fuel, readAll (read fuel) list = some results) ↔
      List.Forall₂ (fun entry value => ∃ fuel, read fuel entry = some value) list results := by
  constructor
  · intro h
    obtain ⟨fuel, hfuel⟩ := h
    exact (readAll_eq_some.mp hfuel).imp fun _ _ hentry => ⟨fuel, hentry⟩
  · intro h
    induction h with
    | nil => exact ⟨0, rfl⟩
    | cons hfirst _ ih =>
        obtain ⟨fuel, hfuel⟩ := hfirst
        obtain ⟨fuel', hrest⟩ := ih
        refine ⟨max fuel fuel', readAll_eq_some.mpr (.cons (hmono (Nat.le_max_left _ _) hfuel) ?_)⟩
        exact (readAll_eq_some.mp hrest).imp fun _ _ hentry => hmono (Nat.le_max_right _ _) hentry

theorem part_of_le {registry : Registry} {fuel more : Nat} {part : Option Value} {descriptor : DamlTypeDescriptor}
    {meaning : Meaning} (hle : fuel ≤ more) (h : part.bind (denote registry fuel · descriptor) = some meaning) :
    part.bind (denote registry more · descriptor) = some meaning :=
  @part_mono (denote registry fuel) (denote registry more) (fun _ _ _ => denote_of_le hle) part descriptor meaning h

theorem denotes_list {registry : Registry} {values : List Value} {element : DamlTypeDescriptor}
    {meanings : List Meaning} :
    Denotes registry (.list values) (.list element) (.list meanings) ↔
      List.Forall₂ (fun value meaning => Denotes registry value element meaning) values meanings := by
  unfold Denotes
  rw [← @exists_readAll _ _ (fun fuel value => denote registry fuel value element) _ _ denote_of_le]
  rw [← Denotes, denotes_iff (by simp)]
  simp [denoteValue]

theorem denotes_textMap {registry : Registry} {entries : List (String × Option Value)} {element : DamlTypeDescriptor}
    {meanings : List (String × Meaning)} (hnodup : (entries.map Prod.fst).Nodup) :
    Denotes registry (.textMap entries) (.textMap element) (.textMap meanings) ↔
      List.Forall₂ (fun entry meaning => ∃ fuel, denoteEntry (denote registry fuel) element entry = some meaning)
        entries meanings := by
  rw [denotes_iff (by simp), ← exists_readAll]
  · simp [denoteValue, hnodup]
  · intro fuel more entry value hle h
    obtain ⟨inner, hinner, rfl⟩ := Option.map_eq_some_iff.mp h
    exact Option.map_eq_some_iff.mpr ⟨inner, part_of_le hle hinner, rfl⟩

theorem denotes_genMap {registry : Registry} {entries : List (Option Value × Option Value)}
    {key element : DamlTypeDescriptor} {meanings : List (Meaning × Meaning)} :
    Denotes registry (.genMap entries) (.genMap key element) (.genMap meanings) ↔
      List.Forall₂ (fun entry meaning => ∃ fuel, denotePair (denote registry fuel) key element entry = some meaning)
        entries meanings := by
  rw [denotes_iff (by simp), ← exists_readAll]
  · simp [denoteValue]
  · intro fuel more entry value hle h
    obtain ⟨keyMeaning, hkey, hrest⟩ := Option.bind_eq_some_iff.mp h
    obtain ⟨inner, hinner, rfl⟩ := Option.map_eq_some_iff.mp hrest
    exact Option.bind_eq_some_iff.mpr
      ⟨keyMeaning, part_of_le hle hkey, Option.map_eq_some_iff.mpr ⟨inner, part_of_le hle hinner, rfl⟩⟩

theorem denotes_pair {registry : Registry} {key value : Value} {keyType valueType : DamlTypeDescriptor}
    {keyMeaning meaning : Meaning} :
    (∃ fuel, denotePair (denote registry fuel) keyType valueType (some key, some value) = some (keyMeaning, meaning)) ↔
      Denotes registry key keyType keyMeaning ∧ Denotes registry value valueType meaning := by
  constructor
  · intro h
    obtain ⟨fuel, hfuel⟩ := h
    obtain ⟨_, hkey, hrest⟩ := Option.bind_eq_some_iff.mp hfuel
    obtain ⟨_, hvalue, heq⟩ := Option.map_eq_some_iff.mp hrest
    cases heq
    exact ⟨⟨fuel, hkey⟩, ⟨fuel, hvalue⟩⟩
  · intro h
    obtain ⟨⟨fuel, hkey⟩, ⟨fuel', hvalue⟩⟩ := h
    refine ⟨max fuel fuel', Option.bind_eq_some_iff.mpr ⟨keyMeaning, ?_, Option.map_eq_some_iff.mpr ⟨meaning, ?_, rfl⟩⟩⟩
    · exact denote_of_le (Nat.le_max_left _ _) hkey
    · exact denote_of_le (Nat.le_max_right _ _) hvalue

theorem denotes_record {registry : Registry} {fields : List (String × Option Value)}
    {descriptorFields : List (RecordField DamlTypeDescriptor)} {values : List (Option Value)} {meanings : List Meaning}
    (hvalues : sourceFields fields descriptorFields = some values) :
    Denotes registry (.record fields) (.record descriptorFields) (.record meanings) ↔
      List.Forall₂ (fun field meaning => ∃ fuel, denoteField (denote registry fuel) field = some meaning)
        (descriptorFields.zip values) meanings := by
  rw [denotes_iff (by simp), ← exists_readAll]
  · simp [denoteValue, hvalues]
  · intro fuel more field value hle h
    exact part_of_le hle h

theorem denotes_variant {registry : Registry} {constructorName : String} {payload : Value}
    {constructors : List (VariantConstructor DamlTypeDescriptor)} {found : VariantConstructor DamlTypeDescriptor}
    {meaning : Meaning}
    (hfound : constructors.find? (fun candidate => decide (candidate.constructorName = constructorName)) = some found) :
    Denotes registry (.variant constructorName (some payload)) (.variant constructors) (.variant constructorName meaning)
      ↔ Denotes registry payload found.payload meaning := by
  rw [denotes_iff (by simp)]
  simp [denoteValue, hfound, Denotes]

end CantonSdk.DamlValues
