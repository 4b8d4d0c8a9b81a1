import CantonSdk.Base.Agreement
import CantonSdk.Base.Related
import CantonSdk.DamlValues.Fuel
import CantonSdk.DamlValues.MappedValues

/-!
# Reading query rows and ledger events

A value is decoded from the Ledger API, or from the JSON that query rows hold of it. Dates and timestamps
are text in query rows, and the decoder of JSON wants numbers of days and of microseconds, so no value with
one of them can be read from a row. Everything else is read alike from both, but for the order of the entries of a
text map, which rows do not keep.
-/

set_option linter.all false

namespace CantonSdk.DamlValues

open CantonSdk.Base CantonSdk.Query.Canonical CantonSdk.Query.Grpc

/-! ## Which values are read alike -/

/-- Text of a numeric with at most 38 digits, zeros in front included, and no more after the point than the
scale of its type. -/
def numericReads (numericScale : Option Int) (text : String) : Bool :=
  match numericParts text with
  | none => false
  | some (whole, fraction) =>
      decide (whole.length + fraction.length ≤ 38 ∧ (fraction.length : Int) ≤ numericScale.getD 37)

section Reads

variable (reads : Bool → Value → DamlTypeDescriptor → Bool)

/-- A field is compared only if no later field becomes the same property. -/
def fieldsRead (strict : Bool) : List (RecordField DamlTypeDescriptor × Option Value) → Bool
  | [] => true
  | (field, part) :: rest =>
      (part.all fun value =>
        reads (strict && !(rest.map fun other => other.1.propertyName).contains field.propertyName) value field.type)
        && fieldsRead strict rest

def valueReads (strict : Bool) (value : Value) (descriptor : DamlTypeDescriptor) : Bool :=
  match value, descriptor with
  | .date _, _ | .timestamp _, _ => false
  | .numeric text, .primitive _ numericScale => numericReads numericScale text
  | .optional (some value), .optional element => reads strict value element
  | .list elements, .list element => elements.all fun value => reads strict value element
  | .textMap entries, .textMap element =>
      (!strict || decide (ownKeys (entries.map Prod.fst) = entries.map Prod.fst))
        && entries.all fun entry => entry.2.all fun value => reads strict value element
  | .genMap entries, .genMap key element =>
      entries.all fun entry =>
        (entry.1.all fun value => reads strict value key) && entry.2.all fun value => reads strict value element
  | .record fields, .record descriptorFields =>
      match sourceFields fields descriptorFields with
      | some values => fieldsRead reads strict (descriptorFields.zip values)
      | none => true
  | .variant constructorName payload, .variant constructors =>
      match constructors.find? fun candidate => decide (candidate.constructorName = constructorName) with
      | some found => payload.all fun value => reads strict value found.payload
      | none => true
  | _, _ => true

end Reads

/-- A value has no date and no timestamp, its numerics are spelled as the decoder takes them, and, where
`strict`, the keys of its text maps are in the order in which the host enumerates properties. -/
def readsAlike (registry : Registry) : Nat → Bool → Value → DamlTypeDescriptor → Bool
  | 0, _, _, _ => false
  | fuel + 1, strict, value, .namedReference identity typeArguments =>
      match registry identity typeArguments with
      | some resolved => readsAlike registry fuel strict value resolved
      | none => true
  | fuel + 1, strict, value, descriptor => valueReads (readsAlike registry fuel) strict value descriptor

/-! ## Scalars -/

variable {locale : Collation} {depth : Nat} {strict : Bool} {mapped : QueryValue}

theorem decodeInt64_of_meaning {text : String} {meaning : Meaning} (h : int64Meaning text = some meaning) :
    ∃ n, ∀ path, decodeInt64 text path = .ok (.bigint n) := by
  unfold int64Meaning at h
  rw [Option.map_eq_some_iff] at h
  obtain ⟨n, hn, _⟩ := h
  rw [Option.filter_eq_some_iff, decide_eq_true_eq] at hn
  refine ⟨n, fun path => ?_⟩
  have hrange : ¬ (n < -9223372036854775808 ∨ n > 9223372036854775807) := by omega
  rw [decodeInt64, requireIntegerString, hn.1]
  exact if_neg hrange

theorem decodeNumeric_reads {numericScale : Option Int} {text : String} {meaning : Meaning}
    (h : numericMeaning numericScale text = some meaning) :
    (numericReads numericScale text = true → ∃ value, ∀ path, decodeNumeric text numericScale path = .ok value) ∧
      (numericReads numericScale text = false → ∀ path value, decodeNumeric text numericScale path ≠ .ok value) := by
  unfold numericMeaning at h
  unfold numericReads decodeNumeric
  cases hparts : numericParts text with
  | none =>
      rw [hparts] at h
      cases h
  | some parts =>
      obtain ⟨whole, fraction⟩ := parts
      rw [hparts] at h
      simp only [Option.ite_none_right_eq_some] at h
      obtain ⟨⟨_, hfraction, hscale⟩, _⟩ := h
      have hvalid : ¬ (numericScale.getD 37 < 0 ∨ numericScale.getD 37 > 37) := by
        cases numericScale with
        | none => simp
        | some scale =>
            simp only [isRepresentable, decide_eq_true_eq] at hscale
            simp only [Option.getD_some]
            omega
      simp only [if_neg hvalid, decide_eq_true_eq, decide_eq_false_iff_not]
      constructor
      · intro hreads
        refine ⟨.numeric (canonicalizeLedgerNumeric text whole fraction), fun path => ?_⟩
        rw [if_neg (by omega), if_neg (by omega)]
      · intro hreads path value hok
        split at hok
        · cases hok
        · split at hok
          · cases hok
          · omega

/-- Text that ends in `Z` is no integer. -/
theorem signedDecimal_timestampText (micros : Int) : signedDecimal (timestampText micros) = none := by
  have hlast : 'Z' ∈ (timestampText micros).toList := by
    rw [timestampText, String.toList_append]
    exact List.mem_append_right _ (by decide)
  have hdigits : ∀ digits : List Char, 'Z' ∈ digits → canonicalDigits digits = false := by
    intro digits hmem
    cases digits with
    | nil => rfl
    | cons first rest =>
        rw [canonicalDigits]
        rcases List.mem_cons.mp hmem with rfl | hrest
        · rfl
        · have hall : rest.all Char.isDigit = false := by
            rw [List.all_eq_false]
            exact ⟨'Z', hrest, by decide⟩
          rw [hall, Bool.and_false, Bool.false_and]
  rw [signedDecimal]
  split
  · rename_i digits heq
    rw [heq, List.mem_cons] at hlast
    rw [hdigits digits (hlast.resolve_left (by decide))]
    rfl
  · rw [hdigits _ hlast]
    rfl

/-! ## Parts -/

/-- What the recursive calls of the two decoders are known to do: they agree on values and the JSON of
these, and only absent values become `null`. -/
structure Faithful (locale : Collation) (denote : Value → DamlTypeDescriptor → Option Meaning)
    (decode : DamlValueSource → DamlTypeDescriptor → String → Decoded DamlValue)
    (reads : Bool → Value → DamlTypeDescriptor → Bool) : Prop where
  agree : ∀ {strict : Bool} {value : Value} {descriptor : DamlTypeDescriptor} {meaning : Meaning} {depth : Nat}
    {mapped : QueryValue}, denote value descriptor = some meaning → mapValue locale depth value = .ok mapped →
      Agree strict (reads strict value descriptor) (fun path => decode (.protobuf value) descriptor path)
        (fun path => decode (.json mapped) descriptor path)
  null : ∀ {strict : Bool} {value : Value} {descriptor : DamlTypeDescriptor} {meaning : Meaning} {depth : Nat},
    denote value descriptor = some meaning → mapValue locale depth value = .ok .null →
      reads strict value descriptor = true ∧ ∀ path, decode (.protobuf value) descriptor path = .ok .undefined

section Parts

variable {denote : Value → DamlTypeDescriptor → Option Meaning}
  {decode : DamlValueSource → DamlTypeDescriptor → String → Decoded DamlValue}
  {reads : Bool → Value → DamlTypeDescriptor → Bool}
  (h : Faithful locale denote decode reads)

theorem map_pure_eq {ε α β : Type} {f : α → β} (x : Except ε α) :
    (do let a ← x; return f a : Except ε β) = f <$> x := by
  cases x <;> rfl

include h

theorem agree_part {part : Option Value} {descriptor : DamlTypeDescriptor} {meaning : Meaning}
    (hmeaning : part.bind (denote · descriptor) = some meaning) (hmapped : PartMaps locale depth part mapped) :
    Agree strict (part.all fun value => reads strict value descriptor)
      (fun path => decodeRequiredProtobufValue decode part descriptor path)
      (fun path => decode (.json mapped) descriptor path) := by
  obtain ⟨value, rfl, hvalue⟩ := hmapped
  exact h.agree hmeaning hvalue

theorem agree_list {values : List Value} {items : List QueryValue} {element : DamlTypeDescriptor}
    {meanings : List Meaning} (hmeanings : readAll (denote · element) values = some meanings)
    (hitems : List.Forall₂ (fun value item => mapValue locale depth value = .ok item) values items) :
    Agree strict (values.all fun value => reads strict value element)
      (fun path => decodeProtobufValue decode (.list values) (.list element) path)
      (fun path => decodeJsonValue decode (.array items) (.list element) path) := by
  have hdenoted := forall₂_left (readAll_eq_some.mp hmeanings)
  obtain ⟨pairs, rfl, rfl⟩ := exists_pairs hitems
  have hsteps : ∀ pair ∈ pairs, ∀ index index' : Nat,
      Agree strict (reads strict pair.1.1 element)
        (fun path => decode (.protobuf pair.1.1) element (indexedPath path index))
        (fun path => decode (.json pair.1.2) element (indexedPath path index')) := by
    intro pair hpair index index'
    obtain ⟨meaning, _, hmeaning⟩ := hdenoted _ (List.mem_map_of_mem hpair)
    exact (h.agree hmeaning pair.2).elsewhere (indexedPath · index) (indexedPath · index')
  have hall := Agree.traverse hsteps 0 0
  have harray : Function.Injective DamlValue.array := fun _ _ => DamlValue.array.inj
  rw [List.all_map]
  refine (hall.map harray).congr ?_ ?_
  · intro path
    rw [decodeProtobufValue, mapIndexed_map]
    exact map_pure_eq _
  · intro path
    rw [decodeJsonValue, requireArray]
    change (do let items ← mapIndexed _ 0 _; return DamlValue.array items) = _
    rw [mapIndexed_map]
    exact map_pure_eq _

theorem agree_genMap {entries : List (Option Value × Option Value)} {items : List QueryValue}
    {key element : DamlTypeDescriptor} {meanings : List (Meaning × Meaning)}
    (hmeanings : readAll (denotePair denote key element) entries = some meanings)
    (hitems : List.Forall₂ (PairMaps locale depth) entries items) :
    Agree strict (entries.all fun entry =>
        (entry.1.all fun value => reads strict value key) && entry.2.all fun value => reads strict value element)
      (fun path => decodeProtobufValue decode (.genMap entries) (.genMap key element) path)
      (fun path => decodeJsonValue decode (.array items) (.genMap key element) path) := by
  have hdenoted := forall₂_left (readAll_eq_some.mp hmeanings)
  obtain ⟨pairs, rfl, rfl⟩ := exists_pairs hitems
  have hsteps : ∀ pair ∈ pairs, ∀ index index' : Nat,
      Agree strict
        ((pair.1.1.1.all fun value => reads strict value key) && pair.1.1.2.all fun value => reads strict value element)
        (fun path => decodeGenMapEntry decode key element path index pair.1.1)
        (fun path => decodeJsonGenMapEntry decode key element path index' pair.1.2) := by
    intro pair hpair index index'
    obtain ⟨meaning, _, hmeaning⟩ := hdenoted _ (List.mem_map_of_mem hpair)
    obtain ⟨first, second, hitem, hfirst, hsecond⟩ := pair.2
    rw [denotePair, Option.bind_eq_some_iff] at hmeaning
    obtain ⟨keyMeaning, hkeyMeaning, hrest⟩ := hmeaning
    obtain ⟨valueMeaning, hvalueMeaning, _⟩ := Option.map_eq_some_iff.mp hrest
    have hkeys : Agree strict _ _ _ := agree_part h hkeyMeaning hfirst
    have hvalues : Agree strict _ _ _ := agree_part h hvalueMeaning hsecond
    refine ((hkeys.elsewhere (indexedPath · index ++ ".key") (indexedPath · index' ++ ".key")).pair
      (hvalues.elsewhere (indexedPath · index ++ ".value") (indexedPath · index' ++ ".value"))).congr
        (fun path => rfl) ?_
    intro path
    rw [hitem]
    rfl
  have hall := Agree.traverse hsteps 0 0
  have hmap : Function.Injective DamlValue.genMap := fun _ _ => DamlValue.genMap.inj
  rw [List.all_map]
  refine (hall.map hmap).congr ?_ ?_
  · intro path
    rw [decodeProtobufValue, mapIndexed_map]
    exact map_pure_eq _
  · intro path
    rw [decodeJsonValue, requireArray]
    change (do let items ← mapIndexed _ 0 _; return DamlValue.genMap items) = _
    rw [mapIndexed_map]
    exact map_pure_eq _

/-! ### Text maps -/

theorem agree_entries {entries : List (String × Option Value)} {properties : List (String × QueryValue)}
    {element : DamlTypeDescriptor} {meanings : List (String × Meaning)}
    (hmeanings : readAll (denoteEntry denote element) entries = some meanings)
    (hproperties : List.Forall₂ (EntryMaps locale depth) entries properties) :
    Agree strict (entries.all fun entry => entry.2.all fun value => reads strict value element)
      (fun path => mapIndexed (decodeTextMapEntry decode element path) 0 entries)
      (fun path => properties.mapM (decodeJsonTextMapEntry decode element path)) := by
  have hdenoted := forall₂_left (readAll_eq_some.mp hmeanings)
  obtain ⟨pairs, rfl, rfl⟩ := exists_pairs hproperties
  have hsteps : ∀ pair ∈ pairs, ∀ index index' : Nat,
      Agree strict (pair.1.1.2.all fun value => reads strict value element)
        (fun path => decodeTextMapEntry decode element path index pair.1.1)
        (fun path => decodeJsonTextMapEntry decode element path pair.1.2) := by
    intro pair hpair index index'
    obtain ⟨meaning, _, hmeaning⟩ := hdenoted _ (List.mem_map_of_mem hpair)
    obtain ⟨valueMeaning, hvalueMeaning, _⟩ := Option.map_eq_some_iff.mp hmeaning
    have hpart : Agree strict _ _ _ := agree_part h hvalueMeaning pair.2.2
    have hvalue := hpart.elsewhere (fun path => indexedPath path index ++ "." ++ pair.1.1.1)
      (fun path => fieldPath path pair.1.2.1)
    have hpairInjective : Function.Injective fun value : DamlValue => (pair.1.1.1, value) :=
      fun _ _ heq => (Prod.mk.inj heq).2
    refine (hvalue.map hpairInjective).congr ?_ ?_
    · intro path
      exact map_pure_eq _
    · intro path
      rw [decodeJsonTextMapEntry, pair.2.1]
      exact map_pure_eq _
  have hall := Agree.traverse hsteps 0 0
  rw [List.all_map]
  refine hall.congr ?_ ?_
  · intro path
    rw [mapIndexed_map]
  · intro path
    rw [mapM_eq_mapIndexed 0, mapIndexed_map]

omit h in
theorem keys_of_decodedProperties {element : DamlTypeDescriptor} {path : String}
    {properties : List (String × QueryValue)} {decoded : List (String × DamlValue)}
    (hdecoded : properties.mapM (decodeJsonTextMapEntry decode element path) = .ok decoded) :
    decoded.map Prod.fst = properties.map Prod.fst := by
  have hall := mapM_eq_ok.mp hdecoded
  induction hall with
  | nil => rfl
  | cons hfirst _ ih =>
      obtain ⟨value, _, hvalue⟩ := bind_eq_ok.mp hfirst
      cases hvalue
      rw [List.map_cons, List.map_cons, ih (mapM_eq_ok.mpr (by assumption))]

omit h in
/-- The steps of a traversal that succeeds wherever it stands. -/
theorem succeeds_everywhere {ε α β : Type} {f : String → α → Except ε β} {list : List α} {results : List β}
    (hall : ∀ path, list.mapM (f path) = .ok results) : ∀ a ∈ list, ∃ b, ∀ path, f path a = .ok b := by
  induction list generalizing results with
  | nil => exact nofun
  | cons a rest ih =>
      cases results with
      | nil => cases mapM_eq_ok.mp (hall "")
      | cons b bs =>
          have hsteps : ∀ path, f path a = .ok b ∧ rest.mapM (f path) = .ok bs := by
            intro path
            have hpath := mapM_eq_ok.mp (hall path)
            rw [List.forall₂_cons] at hpath
            exact ⟨hpath.1, mapM_eq_ok.mpr hpath.2⟩
          exact List.forall_mem_cons.mpr ⟨⟨b, fun path => (hsteps path).1⟩, ih fun path => (hsteps path).2⟩

theorem agree_textMap {entries : List (String × Option Value)} {properties : List (String × QueryValue)}
    {element : DamlTypeDescriptor} {meanings : List (String × Meaning)}
    (hmeanings : readAll (denoteEntry denote element) entries = some meanings)
    (hproperties : List.Forall₂ (EntryMaps locale depth) entries properties)
    (hnodup : (properties.map Prod.fst).Nodup) :
    Agree strict ((!strict || decide (ownKeys (entries.map Prod.fst) = entries.map Prod.fst))
        && entries.all fun entry => entry.2.all fun value => reads strict value element)
      (fun path => decodeProtobufValue decode (.textMap entries) (.textMap element) path)
      (fun path => decodeJsonValue decode (.object properties) (.textMap element) path) := by
  have hentries : Agree strict _ _ _ := agree_entries h hmeanings hproperties
  have hkeys := keys_of_entryMaps hproperties
  have hmap : Function.Injective DamlValue.textMap := fun _ _ => DamlValue.textMap.inj
  have hfirst : ∀ path, decodeProtobufValue decode (.textMap entries) (.textMap element) path
      = DamlValue.textMap <$> mapIndexed (decodeTextMapEntry decode element path) 0 entries := by
    intro path
    exact map_pure_eq _
  have hsecond : ∀ path, decodeJsonValue decode (.object properties) (.textMap element) path
      = DamlValue.textMap <$> (ownOrder properties).mapM (decodeJsonTextMapEntry decode element path) := by
    intro path
    exact map_pure_eq _
  by_cases hordered : ownKeys (entries.map Prod.fst) = entries.map Prod.fst
  · -- the host enumerates the properties as they were defined
    have hself : ownOrder properties = properties := ownOrder_of_ownKeys hnodup (by rw [hkeys, hordered])
    rw [decide_eq_true hordered, Bool.or_true, Bool.true_and]
    exact (hentries.map hmap).congr hfirst fun path => by rw [hsecond, hself]
  · rw [decide_eq_false hordered, Bool.or_false]
    cases strict with
    | true =>
        -- the two lists of entries have their keys in different orders
        refine ⟨nofun, ?_⟩
        intro place place' a b ha hb hsame
        exfalso
        apply hordered
        obtain ⟨decoded, hdecoded, rfl⟩ := map_eq_ok ((hfirst place).symm.trans ha)
        obtain ⟨decoded', hdecoded', rfl⟩ := map_eq_ok ((hsecond place').symm.trans hb)
        obtain rfl := hmap (hsame rfl)
        rw [← hkeys, ← keys_ownOrder, ← keys_of_decodedProperties hdecoded', keys_of_decodedEntries hdecoded, hkeys]
    | false =>
        rw [Bool.not_false, Bool.true_and]
        constructor
        · intro hreads
          obtain ⟨a, b, ha, hb, _⟩ := hentries.succeed hreads
          obtain ⟨pairs, hpairs, hresults⟩ := exists_beside fun property hproperty =>
            succeeds_everywhere hb property ((perm_ownOrder properties).mem_iff.mp hproperty)
          refine ⟨.textMap a, .textMap (pairs.map Prod.snd), fun path => by rw [hfirst, ha]; rfl, fun path => ?_, nofun⟩
          have hall : (pairs.map Prod.fst).mapM (decodeJsonTextMapEntry decode element path)
              = .ok (pairs.map Prod.snd) := by
            rw [mapM_eq_ok, List.forall₂_map_left_iff, List.forall₂_map_right_iff, List.forall₂_same]
            intro pair hpair
            exact hresults pair hpair path
          rw [hsecond, ← hpairs, hall]
          rfl
        · intro place place' a b ha hb _
          obtain ⟨decoded, hdecoded, rfl⟩ := map_eq_ok ((hfirst place).symm.trans ha)
          obtain ⟨decoded', hdecoded', rfl⟩ := map_eq_ok ((hsecond place').symm.trans hb)
          obtain ⟨reordered, hreordered, _⟩ := mapM_perm (perm_ownOrder properties) hdecoded'
          exact hentries.only place place' decoded reordered hdecoded hreordered nofun

/-! ### Records -/

/-- A field of a record type, with a value and the JSON of it. -/
abbrev PlannedField := RecordField DamlTypeDescriptor × Value × QueryValue

/-- The field from the value, or from the JSON of it. -/
def plannedSource (decode : DamlValueSource → DamlTypeDescriptor → String → Decoded DamlValue)
    (source : PlannedField → DamlValueSource) (path : String) (planned : PlannedField) :
    Decoded (String × DamlValue) :=
  (planned.1.propertyName, ·) <$> decode (source planned) planned.1.type (fieldPath path planned.1.propertyName)

def protobufSource (planned : PlannedField) : DamlValueSource := .protobuf planned.2.1
def jsonSource (planned : PlannedField) : DamlValueSource := .json planned.2.2

def planMatches (locale : Collation) (denote : Value → DamlTypeDescriptor → Option Meaning) (depth : Nat)
    (planned : PlannedField) : Prop :=
  (∃ meaning, denote planned.2.1 planned.1.type = some meaning) ∧
    mapValue locale depth planned.2.1 = .ok planned.2.2

omit h in
theorem names_of_planned {plan : List PlannedField} {source : PlannedField → DamlValueSource} {path : String}
    {results : List (String × DamlValue)} (hresults : plan.mapM (plannedSource decode source path) = .ok results) :
    results.map Prod.fst = plan.map fun planned => planned.1.propertyName := by
  have hall := mapM_eq_ok.mp hresults
  clear hresults
  induction hall with
  | nil => rfl
  | cons hstep _ ih =>
      obtain ⟨_, _, rfl⟩ := map_eq_ok hstep
      rw [List.map_cons, List.map_cons, ih]

theorem fields_succeed {plan : List PlannedField} (hplan : ∀ planned ∈ plan, planMatches locale denote depth planned)
    (hreads : fieldsRead reads strict (plan.map fun planned => (planned.1, some planned.2.1)) = true) :
    ∃ first last, (∀ path, plan.mapM (plannedSource decode protobufSource path) = .ok first) ∧
      (∀ path, plan.mapM (plannedSource decode jsonSource path) = .ok last) ∧
      first.map Prod.fst = plan.map (fun planned => planned.1.propertyName) ∧
      last.map Prod.fst = plan.map (fun planned => planned.1.propertyName) ∧
      (strict = true → assigned first = assigned last) := by
  induction plan with
  | nil => exact ⟨[], [], fun _ => rfl, fun _ => rfl, rfl, rfl, fun _ => rfl⟩
  | cons planned rest ih =>
      rw [List.forall_mem_cons] at hplan
      rw [List.map_cons, fieldsRead, Bool.and_eq_true, Option.all_some, List.map_map] at hreads
      obtain ⟨first, last, hfirst, hlast, hnames, hnames', hsame⟩ := ih hplan.2 hreads.2
      obtain ⟨⟨⟨meaning, hmeaning⟩, hmapped⟩, _⟩ := hplan
      obtain ⟨a, b, ha, hb, hvalue⟩ := (h.agree hmeaning hmapped).succeed hreads.1
      refine ⟨(planned.1.propertyName, a) :: first, (planned.1.propertyName, b) :: last, ?_, ?_, ?_, ?_, ?_⟩
      · intro path
        rw [List.mapM_cons, plannedSource, protobufSource, ha, hfirst]
        rfl
      · intro path
        rw [List.mapM_cons, plannedSource, jsonSource, hb, hlast]
        rfl
      · rw [List.map_cons, List.map_cons, hnames]
      · rw [List.map_cons, List.map_cons, hnames']
      · intro hstrict
        rw [assigned_cons_eq_iff (hnames.trans hnames'.symm)]
        refine ⟨hsame hstrict, fun hshown => hvalue ?_⟩
        rw [hnames] at hshown
        simp only [hstrict, Bool.true_and, Bool.not_eq_true', List.contains_eq_mem, decide_eq_false_iff_not]
        exact hshown

theorem fields_only {plan : List PlannedField} (hplan : ∀ planned ∈ plan, planMatches locale denote depth planned)
    {path path' : String} {first last : List (String × DamlValue)}
    (hfirst : plan.mapM (plannedSource decode protobufSource path) = .ok first)
    (hlast : plan.mapM (plannedSource decode jsonSource path') = .ok last)
    (hsame : strict = true → assigned first = assigned last) :
    fieldsRead reads strict (plan.map fun planned => (planned.1, some planned.2.1)) = true ∧
      first.map Prod.fst = plan.map (fun planned => planned.1.propertyName) ∧
      last.map Prod.fst = plan.map (fun planned => planned.1.propertyName) := by
  induction plan generalizing first last with
  | nil =>
      cases hfirst
      cases hlast
      exact ⟨rfl, rfl, rfl⟩
  | cons planned rest ih =>
      rw [List.forall_mem_cons] at hplan
      rw [List.mapM_cons] at hfirst hlast
      obtain ⟨field, hfield, hfirst⟩ := bind_eq_ok.mp hfirst
      obtain ⟨fields, hfields, hfirst⟩ := bind_eq_ok.mp hfirst
      obtain ⟨field', hfield', hlast⟩ := bind_eq_ok.mp hlast
      obtain ⟨fields', hfields', hlast⟩ := bind_eq_ok.mp hlast
      cases hfirst
      cases hlast
      obtain ⟨a, ha, rfl⟩ := map_eq_ok hfield
      obtain ⟨b, hb, rfl⟩ := map_eq_ok hfield'
      have hleft := names_of_planned hfields
      have hright := names_of_planned hfields'
      have hcons := fun hstrict => (assigned_cons_eq_iff (hleft.trans hright.symm)).mp (hsame hstrict)
      obtain ⟨⟨⟨meaning, hmeaning⟩, hmapped⟩, hplanRest⟩ := hplan
      refine ⟨?_, by rw [List.map_cons, List.map_cons, hleft], by rw [List.map_cons, List.map_cons, hright]⟩
      rw [List.map_cons, fieldsRead, Bool.and_eq_true, Option.all_some, List.map_map]
      refine ⟨?_, (ih hplanRest hfields hfields' fun hstrict => (hcons hstrict).1).1⟩
      refine (h.agree hmeaning hmapped).only _ _ a b ha hb fun hflag => ?_
      simp only [Bool.and_eq_true, Bool.not_eq_true', List.contains_eq_mem, decide_eq_false_iff_not] at hflag
      refine (hcons hflag.1).2 ?_
      rw [hleft]
      exact hflag.2

omit h in
theorem mem_of_find {α : Type} {entries : List (String × α)} (hnodup : (entries.map Prod.fst).Nodup) {key : String}
    {value : α} (hmem : (key, value) ∈ entries) :
    entries.find? (fun entry => decide (entry.1 = key)) = some (key, value) :=
  (KeyedMap.find_eq_some hnodup).mpr hmem

omit h in
/-- The fields that a labelled record has for its type, with their JSON. -/
theorem exists_plan {fields : List (String × Option Value)} {properties : List (String × QueryValue)}
    {descriptorFields : List (RecordField DamlTypeDescriptor)} {values : List (Option Value)}
    {meanings : List Meaning} (hlabels : (fields.all fun field => !field.1.isEmpty) = true)
    (hproperties : List.Forall₂ (EntryMaps locale depth) fields properties)
    (hsource : sourceFields fields descriptorFields = some values)
    (hmeanings : readAll (denoteField denote) (descriptorFields.zip values) = some meanings) :
    (fields.map Prod.fst).Nodup ∧ (fields.map Prod.fst).Perm (descriptorFields.map RecordField.damlLabel) ∧
      ∃ plan : List PlannedField, plan.map Prod.fst = descriptorFields ∧
        descriptorFields.zip values = plan.map (fun planned => (planned.1, some planned.2.1)) ∧
        (∀ planned ∈ plan, planMatches locale denote depth planned) ∧
        ∀ planned ∈ plan, (planned.1.damlLabel, some planned.2.1) ∈ fields ∧
          (planned.1.damlLabel, planned.2.2) ∈ properties := by
  rw [sourceFields, if_pos hlabels, Option.ite_none_right_eq_some, Option.some.injEq] at hsource
  obtain ⟨⟨hnodup, hperm⟩, rfl⟩ := hsource
  refine ⟨hnodup, hperm, ?_⟩
  have hzip : ∀ list : List (RecordField DamlTypeDescriptor), ∀ f : RecordField DamlTypeDescriptor → Option Value,
      list.zip (list.map f) = list.map fun field => (field, f field) := by
    intro list f
    induction list with
    | nil => rfl
    | cons field rest ih => rw [List.map_cons, List.zip_cons_cons, ih, List.map_cons]
  rw [hzip] at hmeanings ⊢
  have hdenoted := forall₂_left (readAll_eq_some.mp hmeanings)
  have hplanned : ∀ field ∈ descriptorFields, ∃ source : Value × QueryValue,
      planMatches locale denote depth (field, source) ∧
        (field.damlLabel, some source.1) ∈ fields ∧ (field.damlLabel, source.2) ∈ properties := by
    intro field hfield
    have hlabel : field.damlLabel ∈ fields.map Prod.fst := hperm.mem_iff.mpr (List.mem_map_of_mem hfield)
    obtain ⟨⟨label, part⟩, hmem, heq⟩ := List.mem_map.mp hlabel
    obtain rfl : label = field.damlLabel := heq
    obtain ⟨⟨name, item⟩, hitem, hname, value, rfl, hmapped⟩ := forall₂_left hproperties _ hmem
    obtain rfl : name = field.damlLabel := hname
    obtain ⟨meaning, _, hmeaning⟩ := hdenoted _ (List.mem_map_of_mem hfield)
    rw [mem_of_find hnodup hmem] at hmeaning
    exact ⟨(value, item), ⟨⟨meaning, hmeaning⟩, hmapped⟩, hmem, hitem⟩
  obtain ⟨plan, hfields, hplan⟩ := exists_beside hplanned
  refine ⟨plan, hfields, ?_, fun planned hmem => (hplan planned hmem).1, fun planned hmem => (hplan planned hmem).2⟩
  rw [← hfields, List.map_map]
  apply List.map_congr_left
  intro planned hmem
  have hfind := mem_of_find hnodup (hplan planned hmem).2.1
  simp only [Function.comp_apply, hfind, Option.map_some, Option.join_some]

theorem agree_record {fields : List (String × Option Value)} {properties : List (String × QueryValue)}
    {descriptorFields : List (RecordField DamlTypeDescriptor)} {values : List (Option Value)}
    {meanings : List Meaning} (hlabels : (fields.all fun field => !field.1.isEmpty) = true)
    (hproperties : List.Forall₂ (EntryMaps locale depth) fields properties)
    (hsource : sourceFields fields descriptorFields = some values)
    (hmeanings : readAll (denoteField denote) (descriptorFields.zip values) = some meanings) :
    Agree strict (fieldsRead reads strict (descriptorFields.zip values))
      (fun path => decodeProtobufValue decode (.record fields) (.record descriptorFields) path)
      (fun path => decodeJsonValue decode (.object properties) (.record descriptorFields) path) := by
  obtain ⟨hnodup, hperm, plan, rfl, hzip, hplan, hfound⟩ := exists_plan hlabels hproperties hsource hmeanings
  have hkeys := keys_of_entryMaps hproperties
  have hordered := perm_ownOrder properties
  have horderedNodup : ((ownOrder properties).map Prod.fst).Nodup := by
    rw [(hordered.map _).nodup_iff, hkeys]
    exact hnodup
  have hlength : fields.length = (plan.map Prod.fst).length := by
    have hlengths := hperm.length_eq
    rwa [List.length_map, List.length_map] at hlengths
  have hfirst : ∀ path, decodeProtobufValue decode (.record fields) (.record (plan.map Prod.fst)) path
      = (fun output => DamlValue.record (assigned output) none) <$>
          plan.mapM (plannedSource decode protobufSource path) := by
    intro path
    have hfields : (plan.map Prod.fst).mapM (decodeLabelledField decode fields path)
        = plan.mapM (plannedSource decode protobufSource path) := by
      refine mapM_map_congr fun planned hmem => ?_
      rw [decodeLabelledField, mem_of_find hnodup (hfound planned hmem).1]
      exact map_pure_eq _
    rw [decodeProtobufValue, decodeProtobufRecord, if_pos hlabels, if_pos hnodup, hfields]
    cases plan.mapM (plannedSource decode protobufSource path) with
    | error error => rfl
    | ok output => exact if_neg (not_not_intro hlength)
  have hsecond : ∀ path, decodeJsonValue decode (.object properties) (.record (plan.map Prod.fst)) path
      = (fun output => DamlValue.record (assigned output) none) <$> plan.mapM (plannedSource decode jsonSource path) := by
    intro path
    have hfields : (plan.map Prod.fst).mapM (decodeJsonField decode (ownOrder properties) path)
        = plan.mapM (plannedSource decode jsonSource path) := by
      refine mapM_map_congr fun planned hmem => ?_
      rw [decodeJsonField, ownProperty, mem_of_find horderedNodup (hordered.mem_iff.mpr (hfound planned hmem).2)]
      exact map_pure_eq _
    have hexpected : (ownOrder properties).find? (fun property =>
        !((plan.map Prod.fst).map RecordField.damlLabel).contains property.1) = none := by
      rw [List.find?_eq_none]
      intro property hproperty
      have hlabel : property.1 ∈ fields.map Prod.fst := by
        rw [← hkeys]
        exact List.mem_map_of_mem (hordered.mem_iff.mp hproperty)
      rw [hperm.mem_iff] at hlabel
      simpa using hlabel
    simp only [decodeJsonValue, decodeJsonRecord, requireObject, bind, Except.bind, hexpected, hfields]
    exact map_pure_eq _
  rw [hzip]
  constructor
  · intro hreads
    obtain ⟨first, last, hfirstAll, hlastAll, _, _, hsame⟩ := fields_succeed h hplan hreads
    refine ⟨_, _, fun path => by rw [hfirst, hfirstAll]; rfl, fun path => by rw [hsecond, hlastAll]; rfl, ?_⟩
    intro hstrict
    change DamlValue.record (assigned first) none = DamlValue.record (assigned last) none
    rw [hsame hstrict]
  · intro place place' a b ha hb hsame
    obtain ⟨first, hfirstOk, rfl⟩ := map_eq_ok ((hfirst place).symm.trans ha)
    obtain ⟨last, hlastOk, rfl⟩ := map_eq_ok ((hsecond place').symm.trans hb)
    exact (fields_only h hplan hfirstOk hlastOk fun hstrict => (DamlValue.record.inj (hsame hstrict)).1).1

/-! ### Variants and optionals -/

theorem agree_variant {constructorName : String} {payload : Option Value} {item : QueryValue}
    {constructors : List (VariantConstructor DamlTypeDescriptor)} {found : VariantConstructor DamlTypeDescriptor}
    {meaning : Meaning}
    (hfind : constructors.find? (fun candidate => decide (candidate.constructorName = constructorName)) = some found)
    (hmeaning : payload.bind (denote · found.payload) = some meaning) (hpayload : PartMaps locale depth payload item) :
    Agree strict (payload.all fun value => reads strict value found.payload)
      (fun path => decodeProtobufValue decode (.variant constructorName payload) (.variant constructors) path)
      (fun path => decodeJsonValue decode (.object [("tag", .text constructorName), ("value", item)])
        (.variant constructors) path) := by
  have hpart : Agree strict _ _ _ := agree_part h hmeaning hpayload
  have hinjective : Function.Injective fun value => DamlValue.variant constructorName value none :=
    fun _ _ heq => (DamlValue.variant.inj heq).2.1
  have hproperties : ownOrder [("tag", QueryValue.text constructorName), ("value", item)]
      = [("tag", .text constructorName), ("value", item)] := by
    apply ownOrder_of_ownKeys
    · change ["tag", "value"].Nodup
      decide
    · change ownKeys ["tag", "value"] = ["tag", "value"]
      decide
  have hwhere := hpart.elsewhere (fun path => path ++ "." ++ constructorName) (fun path => path ++ "." ++ constructorName)
  refine (hwhere.map hinjective).congr ?_ ?_
  · intro path
    simp only [decodeProtobufValue, hfind]
    exact map_pure_eq _
  · intro path
    have htag : requireTag [("tag", QueryValue.text constructorName), ("value", item)] path = .ok constructorName := rfl
    have hvalue : ownProperty [("tag", QueryValue.text constructorName), ("value", item)] "value" = some item := rfl
    rw [decodeJsonValue, decodeJsonVariant, requireObject, hproperties]
    simp only [bind, Except.bind, htag, hfind, hvalue]
    exact map_pure_eq _

theorem agree_optional {value : Value} {element : DamlTypeDescriptor} {meaning : Meaning}
    (hmeaning : denote value element = some meaning) (hmapped : mapValue locale depth value = .ok mapped) :
    Agree strict (reads strict value element)
      (fun path => decodeProtobufValue decode (.optional (some value)) (.optional element) path)
      (fun path => decodeJsonValue decode mapped (.optional element) path) := by
  by_cases hnull : mapped = .null
  · subst hnull
    obtain ⟨hreads, hdecoded⟩ := h.null hmeaning hmapped
    rw [hreads]
    exact .const hdecoded fun _ => rfl
  · refine (h.agree hmeaning hmapped).congr (fun path => rfl) fun path => ?_
    cases mapped with
    | null => exact absurd rfl hnull
    | _ => rfl

/-! ### All values -/

omit h in
theorem decodeJson_timestamp {text : String} {numericScale : Option Int} (hinteger : signedDecimal text = none)
    (path : String) (result : DamlValue) :
    decodeJsonValue decode (.text text) (.primitive .timestamp numericScale) path ≠ .ok result := by
  intro hok
  change decodeTimestamp text path = .ok result at hok
  rw [decodeTimestamp, requireIntegerString, hinteger] at hok
  cases hok

theorem agree_value {value : Value} {descriptor : DamlTypeDescriptor} {meaning : Meaning}
    (hmeaning : denoteValue denote value descriptor = some meaning)
    (hmapped : mapValue locale depth value = .ok mapped) :
    Agree strict (valueReads reads strict value descriptor)
      (fun path => decodeProtobufValue decode value descriptor path)
      (fun path => decodeJsonValue decode mapped descriptor path) := by
  unfold denoteValue at hmeaning
  split at hmeaning
  on_goal 18 => cases hmeaning
  all_goals
    rw [mapValue] at hmapped
    replace hmapped := withinDepth_eq_ok hmapped
  · -- unit
    cases hmapped
    exact .const (fun _ => rfl) fun _ => rfl
  · -- bool
    cases hmapped
    exact .const (fun _ => rfl) fun _ => rfl
  · -- int64
    rename_i text _
    obtain ⟨n, hn⟩ := decodeInt64_of_meaning hmeaning
    obtain ⟨_, hint64, rfl⟩ := map_eq_ok hmapped
    rw [int64_eq_ok hint64]
    exact .const hn hn
  · -- date
    obtain ⟨text, _, rfl⟩ := map_eq_ok hmapped
    exact .second_fails fun _ _ hok => nomatch hok
  · -- timestamp
    obtain ⟨_, htimestamp, rfl⟩ := map_eq_ok hmapped
    obtain ⟨micros, rfl⟩ := mapTimestamp_eq_ok htimestamp
    exact .second_fails (decodeJson_timestamp (signedDecimal_timestampText micros))
  · -- numeric
    rename_i text numericScale
    obtain ⟨_, hnumeric, rfl⟩ := map_eq_ok hmapped
    rw [mapNumeric_eq_ok hnumeric]
    obtain ⟨hreads, hfails⟩ := decodeNumeric_reads hmeaning
    change Agree strict (numericReads numericScale text) (decodeNumeric text numericScale)
      (decodeNumeric text numericScale)
    cases hflag : numericReads numericScale text with
    | true =>
        obtain ⟨result, hresult⟩ := hreads hflag
        exact .const hresult hresult
    | false => exact .first_fails (hfails hflag)
  · -- party
    rename_i party _
    obtain ⟨_, hparty, rfl⟩ := map_eq_ok hmapped
    rw [validPartyId_eq_ok hparty]
    rw [partyMeaning, Option.ite_none_left_eq_some] at hmeaning
    have hdecoded : ∀ path, decodeParty party path = .ok (.party party) := fun path => if_neg hmeaning.1
    exact .const hdecoded hdecoded
  · -- text
    cases hmapped
    exact .const (fun _ => rfl) fun _ => rfl
  · -- contract id
    obtain ⟨_, hcontractId, rfl⟩ := map_eq_ok hmapped
    rw [validLedgerString_eq_ok hcontractId]
    exact .const (fun _ => rfl) fun _ => rfl
  · -- no optional value
    cases hmapped
    exact .const (fun _ => rfl) fun _ => rfl
  · -- an optional value
    obtain ⟨inner, hinner, _⟩ := Option.map_eq_some_iff.mp hmeaning
    exact agree_optional h hinner hmapped
  · -- list
    obtain ⟨meanings, hmeanings, _⟩ := Option.map_eq_some_iff.mp hmeaning
    obtain ⟨items, hitems, rfl⟩ := map_eq_ok hmapped
    exact agree_list h hmeanings (mapItems_eq_ok hitems)
  · -- text map
    rw [Option.ite_none_right_eq_some] at hmeaning
    obtain ⟨hnodup, hmeaning⟩ := hmeaning
    obtain ⟨meanings, hmeanings, _⟩ := Option.map_eq_some_iff.mp hmeaning
    obtain ⟨properties, hproperties, rfl⟩ := map_eq_ok hmapped
    obtain ⟨added, rfl, hadded, _⟩ := mapTextMap_eq_ok hproperties
    exact agree_textMap h hmeanings hadded (by rwa [keys_of_entryMaps hadded])
  · -- general map
    obtain ⟨meanings, hmeanings, _⟩ := Option.map_eq_some_iff.mp hmeaning
    obtain ⟨pairs, hpairs, rfl⟩ := map_eq_ok hmapped
    exact agree_genMap h hmeanings (mapGenMap_eq_ok hpairs)
  · -- record
    rename_i fields descriptorFields
    obtain ⟨values, hvalues, hmeaning⟩ := Option.bind_eq_some_iff.mp hmeaning
    obtain ⟨meanings, hmeanings, _⟩ := Option.map_eq_some_iff.mp hmeaning
    obtain ⟨properties, hproperties, rfl⟩ := map_eq_ok hmapped
    obtain ⟨added, rfl, hadded, hlabels⟩ := mapRecord_eq_ok hproperties
    simp only [valueReads, hvalues]
    exact agree_record h hlabels hadded hvalues hmeanings
  · -- variant
    rename_i constructorName payload constructors
    obtain ⟨found, hfind, hmeaning⟩ := Option.bind_eq_some_iff.mp hmeaning
    obtain ⟨inner, hinner, _⟩ := Option.map_eq_some_iff.mp hmeaning
    split at hmapped
    · cases hmapped
    · rename_i result hpart
      obtain ⟨value, rfl, hvalue⟩ := mapPart_eq_some hpart
      obtain ⟨tag, htag, htagged⟩ := bind_eq_ok.mp hmapped
      obtain ⟨item, hitem, hobject⟩ := bind_eq_ok.mp htagged
      obtain rfl := validNameString_eq_ok htag
      cases hobject
      simp only [valueReads, hfind]
      exact agree_variant h hfind hinner ⟨value, rfl, hvalue.trans hitem⟩
  · -- enumeration
    rename_i constructorName constructors
    rw [Option.ite_none_right_eq_some] at hmeaning
    obtain ⟨_, henum, rfl⟩ := map_eq_ok hmapped
    rw [validNameString_eq_ok henum]
    have hdecoded : ∀ path, decodeProtobufValue decode (.enum constructorName) (.enum constructors) path
        = .ok (.enum constructorName none) := fun path => if_pos hmeaning.1
    exact .const hdecoded hdecoded

theorem null_value {value : Value} {descriptor : DamlTypeDescriptor} {meaning : Meaning}
    (hmeaning : denoteValue denote value descriptor = some meaning)
    (hmapped : mapValue locale depth value = .ok .null) :
    valueReads reads strict value descriptor = true ∧
      ∀ path, decodeProtobufValue decode value descriptor path = .ok .undefined := by
  cases value with
  | optional inner =>
      cases inner with
      | none =>
          cases descriptor with
          | optional element => exact ⟨rfl, fun _ => rfl⟩
          | _ => cases hmeaning
      | some value =>
          cases descriptor with
          | optional element =>
              obtain ⟨innerMeaning, hinner, _⟩ := Option.map_eq_some_iff.mp hmeaning
              rw [mapValue] at hmapped
              exact h.null hinner (withinDepth_eq_ok hmapped)
          | _ => cases hmeaning
  | variant constructorName payload =>
      rw [mapValue] at hmapped
      replace hmapped := withinDepth_eq_ok hmapped
      split at hmapped
      · cases hmapped
      · obtain ⟨_, _, htagged⟩ := bind_eq_ok.mp hmapped
        obtain ⟨_, _, hobject⟩ := bind_eq_ok.mp htagged
        cases hobject
  | unit | bool | text | unset =>
      rw [mapValue] at hmapped
      cases withinDepth_eq_ok hmapped
  | _ =>
      rw [mapValue] at hmapped
      obtain ⟨_, _, heq⟩ := map_eq_ok (withinDepth_eq_ok hmapped)
      cases heq

end Parts

theorem faithful (locale : Collation) (registry : Registry) (fuel : Nat) :
    Faithful locale (denote registry fuel) (decodeDamlValue registry fuel) (readsAlike registry fuel) := by
  induction fuel with
  | zero => exact ⟨nofun, nofun⟩
  | succ fuel ih =>
      constructor
      · intro strict value descriptor meaning depth mapped hmeaning hmapped
        cases descriptor with
        | namedReference identity typeArguments =>
            obtain ⟨resolved, hresolved, hvalue⟩ := Option.bind_eq_some_iff.mp hmeaning
            simp only [readsAlike, decodeDamlValue, hresolved]
            exact ih.agree hvalue hmapped
        | _ => exact agree_value ih hmeaning hmapped
      · intro strict value descriptor meaning depth hmeaning hmapped
        cases descriptor with
        | namedReference identity typeArguments =>
            obtain ⟨resolved, hresolved, hvalue⟩ := Option.bind_eq_some_iff.mp hmeaning
            simp only [readsAlike, decodeDamlValue, hresolved]
            exact ih.null hvalue hmapped
        | _ => exact null_value ih hmeaning hmapped

/-! ## Query rows -/

/-- Query rows keep what the bindings read of a value. -/
def ReadsAlike (registry : Registry) (value : Value) (descriptor : DamlTypeDescriptor) : Prop :=
  ∃ fuel, readsAlike registry fuel true value descriptor = true

theorem fieldsRead_mono {reads reads' : Bool → Value → DamlTypeDescriptor → Bool}
    (h : ∀ strict value descriptor, reads strict value descriptor = true → reads' strict value descriptor = true)
    {strict : Bool} {fields : List (RecordField DamlTypeDescriptor × Option Value)}
    (hreads : fieldsRead reads strict fields = true) : fieldsRead reads' strict fields = true := by
  induction fields with
  | nil => rfl
  | cons field rest ih =>
      obtain ⟨descriptorField, part⟩ := field
      rw [fieldsRead, Bool.and_eq_true, Option.all_eq_true] at hreads ⊢
      exact ⟨fun value hvalue => h _ _ _ (hreads.1 value hvalue), ih hreads.2⟩

theorem valueReads_mono {reads reads' : Bool → Value → DamlTypeDescriptor → Bool}
    (h : ∀ strict value descriptor, reads strict value descriptor = true → reads' strict value descriptor = true)
    {strict : Bool} {value : Value} {descriptor : DamlTypeDescriptor}
    (hreads : valueReads reads strict value descriptor = true) :
    valueReads reads' strict value descriptor = true := by
  have hpart : ∀ {part : Option Value} {descriptor : DamlTypeDescriptor},
      (part.all fun value => reads strict value descriptor) = true →
        (part.all fun value => reads' strict value descriptor) = true := by
    intro part descriptor hall
    rw [Option.all_eq_true] at hall ⊢
    exact fun value hvalue => h _ _ _ (hall value hvalue)
  unfold valueReads at hreads ⊢
  split at hreads
  · cases hreads
  · cases hreads
  · exact hreads
  · exact h _ _ _ hreads
  · rw [List.all_eq_true] at hreads ⊢
    exact fun value hvalue => h _ _ _ (hreads value hvalue)
  · rw [Bool.and_eq_true, List.all_eq_true] at hreads ⊢
    exact ⟨hreads.1, fun entry hentry => hpart (hreads.2 entry hentry)⟩
  · simp only [List.all_eq_true, Bool.and_eq_true] at hreads ⊢
    exact fun entry hentry => ⟨hpart (hreads entry hentry).1, hpart (hreads entry hentry).2⟩
  · split at hreads
    · exact fieldsRead_mono h hreads
    · rfl
  · split at hreads
    · exact hpart hreads
    · rfl
  · rfl

theorem readsAlike_succ {registry : Registry} {fuel : Nat} {strict : Bool} {value : Value}
    {descriptor : DamlTypeDescriptor} (h : readsAlike registry fuel strict value descriptor = true) :
    readsAlike registry (fuel + 1) strict value descriptor = true := by
  induction fuel generalizing strict value descriptor with
  | zero => cases h
  | succ fuel ih =>
      cases descriptor with
      | namedReference identity typeArguments =>
          rw [readsAlike] at h ⊢
          split at h
          · exact ih h
          · rfl
      | _ => exact valueReads_mono (fun _ _ _ => ih) h

theorem readsAlike_of_le {registry : Registry} {fuel more : Nat} {strict : Bool} {value : Value}
    {descriptor : DamlTypeDescriptor} (hle : fuel ≤ more)
    (h : readsAlike registry fuel strict value descriptor = true) :
    readsAlike registry more strict value descriptor = true := by
  induction hle with
  | refl => exact h
  | step _ ih => exact readsAlike_succ ih

/-- Generated bindings read a value of the Ledger API and the query row of it alike exactly when the row keeps
what they read. -/
theorem reads_alike_iff {locale : Collation} {registry : Registry} {value : Value} {descriptor : DamlTypeDescriptor}
    {json : QueryValue} {path : String} (htyped : ∃ meaning, Denotes registry value descriptor meaning)
    (hmapped : mapGrpcQueryValue locale value = .ok json) :
    (∃ decoded, Decodes registry (.json json) descriptor path decoded ∧
        Decodes registry (.protobuf value) descriptor path decoded) ↔
      ReadsAlike registry value descriptor := by
  obtain ⟨meaning, least, hmeaning⟩ := htyped
  constructor
  · intro h
    obtain ⟨decoded, hjson, hprotobuf⟩ := h
    obtain ⟨fuel, hle, hjson, hprotobuf⟩ := decodes_together hjson hprotobuf least
    have hagree : Agree true _ _ _ := (faithful locale registry fuel).agree (denote_of_le hle hmeaning) hmapped
    exact ⟨fuel, hagree.only path path decoded decoded hprotobuf hjson fun _ => rfl⟩
  · intro h
    obtain ⟨enough, hreads⟩ := h
    have hmeaning := denote_of_le (Nat.le_max_left least enough) hmeaning
    have hreads := readsAlike_of_le (Nat.le_max_right least enough) hreads
    have hagree : Agree true _ _ _ := (faithful locale registry (max least enough)).agree hmeaning hmapped
    obtain ⟨decoded, decoded', hprotobuf, hjson, hsame⟩ := hagree.succeed hreads
    obtain rfl := hsame rfl
    exact ⟨decoded, ⟨_, hjson path⟩, ⟨_, hprotobuf path⟩⟩

/-- A registry with one recursive type: a text and a list of the same. -/
def treeRegistry : Registry := fun identity _ =>
  if identity.entityName = "Tree" then
    some (.record [⟨"label", "label", .primitive .text none⟩,
      ⟨"children", "children", .list (.namedReference identity [])⟩])
  else none

def treeType : DamlTypeDescriptor := .namedReference ⟨"package", "Trees", "Tree"⟩ []

def treeValue : Value :=
  .record [("children", some (.list [.record [("label", some (.text "leaf")), ("children", some (.list []))]])),
    ("label", some (.text "root"))]

theorem reads_alike_tree :
    ∃ decoded, Decodes treeRegistry
        (.json (.object [("children", .array [.object [("label", .text "leaf"), ("children", .array [])]]),
          ("label", .text "root")])) treeType "$" decoded ∧
      Decodes treeRegistry (.protobuf treeValue) treeType "$" decoded :=
  (@reads_alike_iff .codeUnits _ _ _ _ _
    ⟨.record [.text "root", .list [.record [.text "leaf", .list []]]], 6, by rfl⟩ (by rfl)).mpr
    ⟨6, by decide +kernel⟩

/-- A date is text in query rows, and the decoder of JSON wants the number of days. -/
theorem date_not_read :
    Denotes treeRegistry (.date 19000) (.primitive .date none) (.date 19000) ∧
      mapGrpcQueryValue .codeUnits (.date 19000) = .ok (.text "2022-01-08") ∧
      ¬ ∃ decoded, Decodes treeRegistry (.json (.text "2022-01-08")) (.primitive .date none) "$" decoded := by
  refine ⟨⟨1, by rfl⟩, by rfl, ?_⟩
  intro h
  obtain ⟨decoded, fuel, hdecoded⟩ := h
  cases fuel with
  | zero => cases hdecoded
  | succ fuel => cases hdecoded

end CantonSdk.DamlValues
