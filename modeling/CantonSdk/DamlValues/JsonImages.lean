import CantonSdk.Base.CalendarText
import CantonSdk.DamlValues.AcceptedValues
import CantonSdk.DamlValues.SharedTypes

/-!
# The JSON of ledger values

When two accepted values of one type are mapped to the same JSON. An absent optional and an optional that holds
an absent one are both mapped to null; nothing else is lost.
-/

set_option linter.all false

namespace CantonSdk.DamlValues

open CantonSdk.Base CantonSdk.Query.Canonical CantonSdk.Query.Grpc

variable {locale : Collation} {registry : Registry}

/-! ## The same JSON -/

mutual

/-- The same JSON, whatever the order of the properties of objects. -/
def SameJson : QueryValue → QueryValue → Prop
  | .array items => fun other => ∃ items', other = .array items' ∧ SameItems items items'
  | .object fields => fun other =>
      ∃ fields' listed, other = .object fields' ∧ listed.Perm fields' ∧ SameFields fields listed
  | .null => fun other => other = .null
  | .bool value => fun other => other = .bool value
  | .number value => fun other => other = .number value
  | .text value => fun other => other = .text value
  | .date milliseconds => fun other => other = .date milliseconds
  | .invalidDate => fun other => other = .invalidDate
  | .bytes value => fun other => other = .bytes value

def SameItems : List QueryValue → List QueryValue → Prop
  | [] => fun others => others = []
  | item :: rest => fun others => ∃ item' rest', others = item' :: rest' ∧ SameJson item item' ∧ SameItems rest rest'

def SameFields : List (String × QueryValue) → List (String × QueryValue) → Prop
  | [] => fun others => others = []
  | (key, value) :: rest => fun others =>
      ∃ value' rest', others = (key, value') :: rest' ∧ SameJson value value' ∧ SameFields rest rest'

end

def SameField (field field' : String × QueryValue) : Prop := field'.1 = field.1 ∧ SameJson field.2 field'.2

theorem sameItems_iff {items items' : List QueryValue} : SameItems items items' ↔ List.Forall₂ SameJson items items' := by
  induction items generalizing items' with
  | nil => rw [SameItems, List.forall₂_nil_left_iff]
  | cons item rest ih =>
      rw [SameItems, List.forall₂_cons_left_iff]
      constructor
      · intro h
        obtain ⟨item', rest', rfl, hitem, hrest⟩ := h
        exact ⟨item', rest', hitem, ih.mp hrest, rfl⟩
      · intro h
        obtain ⟨item', rest', hitem, hrest, rfl⟩ := h
        exact ⟨item', rest', rfl, hitem, ih.mpr hrest⟩

theorem sameFields_iff {fields fields' : List (String × QueryValue)} :
    SameFields fields fields' ↔ List.Forall₂ SameField fields fields' := by
  induction fields generalizing fields' with
  | nil => rw [SameFields, List.forall₂_nil_left_iff]
  | cons field rest ih =>
      rw [SameFields, List.forall₂_cons_left_iff]
      constructor
      · intro h
        obtain ⟨value', rest', rfl, hvalue, hrest⟩ := h
        exact ⟨(field.1, value'), rest', ⟨rfl, hvalue⟩, ih.mp hrest, rfl⟩
      · intro h
        obtain ⟨field', rest', ⟨hkey, hvalue⟩, hrest, rfl⟩ := h
        exact ⟨field'.2, rest', by rw [← hkey], hvalue, ih.mpr hrest⟩

/-! ## Values that coincide -/

/-- An optional without a value, or with one that holds nothing. -/
inductive HoldsNothing : Value → Prop
  | absent : HoldsNothing (.optional none)
  | present {value : Value} (h : HoldsNothing value) : HoldsNothing (.optional (some value))

/-- Two values that differ at most in the depth at which an optional is absent, the spelling of timestamps, and the order
of the entries of text maps and the fields of records. -/
def coinciding : Likeness where
  int64s text text' := text = text'
  timestamps := SpellAlike signedDecimal
  numerics text text' := text = text'
  orders _ _ := True
  listings entries entries' := entries = entries'
  absents := HoldsNothing

def Coincide : Value → Value → Prop := Alike coinciding

/-! ## Scalars -/

/-- What the mapping of a timestamp has read and written. -/
theorem mapTimestamp_spec {value text : String} (h : mapTimestamp value = .ok text) :
    ∃ micros, signedDecimal value = some micros ∧ -62135596800000000 ≤ micros ∧ text = timestampText micros := by
  obtain ⟨checked, hchecked, hwritten⟩ := bind_eq_ok.mp h
  obtain rfl := int64_eq_ok hchecked
  split at hwritten
  · cases hwritten
  · rename_i micros hmicros
    split at hwritten
    · cases hwritten
    · rename_i hrange
      exact ⟨micros, hmicros, by omega, (Except.ok.inj hwritten).symm⟩

theorem mapDate_spec {epochDay : Int} {text : String} (h : mapDate epochDay = .ok text) :
    -719162 ≤ epochDay ∧ text = isoDay epochDay := by
  rw [mapDate] at h
  split at h
  · cases h
  · exact ⟨by omega, (Except.ok.inj h).symm⟩

/-- What stands behind the seconds of a timestamp. -/
def subSecondChars (fraction : Nat) : List Char :=
  if fraction = 0 then ['Z']
  else if fraction % 1000 = 0 then '.' :: ((zeroPadded 3 (fraction / 1000)).toList ++ ['Z'])
  else '.' :: ((zeroPadded 6 fraction).toList ++ ['Z'])

theorem toList_timestampText (micros : Int) : (timestampText micros).toList
    = (isoSecond (micros / 1000000)).toList ++ subSecondChars (micros % 1000000).toNat := by
  simp only [timestampText, subSecondChars]
  split
  · simp
  · split <;> simp

theorem noDigit_subSecondChars (fraction : Nat) : NoDigit (subSecondChars fraction) := by
  rw [subSecondChars]
  split
  · exact noDigit_cons rfl _
  · split <;> exact noDigit_cons rfl _

theorem subSecondChars_injective {fraction fraction' : Nat} (h : fraction < 1000000) (h' : fraction' < 1000000)
    (heq : subSecondChars fraction = subSecondChars fraction') : fraction = fraction' := by
  have hread : ∀ {width width' n n' : Nat}, '.' :: ((zeroPadded width n).toList ++ ['Z']) = '.' :: ((zeroPadded width' n').toList ++ ['Z']) →
      (zeroPadded width n).toList = (zeroPadded width' n').toList := by
    intro width width' n n' hsame
    exact List.append_cancel_right (List.cons.inj hsame).2
  have hlength : ∀ n n', n < 1000000 → n' < 1000000 → (zeroPadded 3 (n / 1000)).toList ≠ (zeroPadded 6 n').toList := by
    intro n n' hn hn' hsame
    have hlengths := congrArg List.length hsame
    rw [length_zeroPadded (by omega) (by decide), length_zeroPadded (by omega) (by decide)] at hlengths
    cases hlengths
  unfold subSecondChars at heq
  split at heq
  · split at heq
    · omega
    · split at heq <;> exact absurd (List.cons.inj heq).1 (by decide)
  · split at heq
    · split at heq
      · exact absurd (List.cons.inj heq).1 (by decide)
      · split at heq
        · have hthousands := zeroPadded_injective (hread heq)
          omega
        · exact absurd (hread heq) (hlength _ _ h h')
    · split at heq
      · exact absurd (List.cons.inj heq).1 (by decide)
      · split at heq
        · exact absurd (hread heq).symm (hlength _ _ h' h)
        · exact zeroPadded_injective (hread heq)

/-- Timestamps are told apart by their text. -/
theorem timestampText_injective {micros micros' : Int} (h : -62135596800000000 ≤ micros)
    (h' : -62135596800000000 ≤ micros') (heq : timestampText micros = timestampText micros') : micros = micros' := by
  have hlists := congrArg String.toList heq
  rw [toList_timestampText, toList_timestampText] at hlists
  obtain ⟨hseconds, hfractions⟩ := isoSecond_read (by omega) (by omega) (noDigit_subSecondChars _)
    (noDigit_subSecondChars _) hlists
  have hfraction := subSecondChars_injective (by omega) (by omega) hfractions
  omega

/-! ## Null -/

/-- An accepted value is mapped to null exactly when it holds nothing. -/
theorem mapped_null_iff (value : Value) {depth : Nat} {mapped : QueryValue} (h : mapValue locale depth value = .ok mapped) :
    mapped = .null ↔ HoldsNothing value := by
  induction value using parts_induction generalizing depth mapped with
  | step value ih =>
  have hother : mapped ≠ .null → (∀ part, value ≠ .optional part) → (mapped = .null ↔ HoldsNothing value) := by
    intro hmapped hvalue
    refine iff_of_false hmapped ?_
    intro hnothing
    cases hnothing with
    | absent => exact hvalue none rfl
    | present _ => exact hvalue _ rfl
  cases value with
  | optional part =>
      rw [mapValue] at h
      have h := withinDepth_eq_ok h
      cases part with
      | none =>
          obtain rfl := Except.ok.inj h
          exact iff_of_true rfl .absent
      | some inner =>
          rw [ih inner List.mem_cons_self h]
          constructor
          · exact .present
          · intro hnothing
            cases hnothing with
            | present hinner => exact hinner
  | unit | bool | text =>
      rw [mapValue] at h
      obtain rfl := Except.ok.inj (withinDepth_eq_ok h)
      exact hother (by simp) (by simp)
  | unset =>
      rw [mapValue] at h
      cases withinDepth_eq_ok h
  | variant constructorName part =>
      rw [mapValue] at h
      cases part with
      | none => cases withinDepth_eq_ok h
      | some inner =>
          obtain ⟨_, _, h⟩ := bind_eq_ok.mp (withinDepth_eq_ok h)
          obtain ⟨_, _, h⟩ := bind_eq_ok.mp h
          obtain rfl := Except.ok.inj h
          exact hother (by simp) (by simp)
  | _ =>
      rw [mapValue] at h
      obtain ⟨_, _, rfl⟩ := map_eq_ok (withinDepth_eq_ok h)
      exact hother (by simp) (by simp)

theorem sameJson_null_iff {value : QueryValue} : SameJson value .null ↔ value = .null := by
  cases value with
  | array items =>
      refine iff_of_false ?_ nofun
      intro h
      obtain ⟨_, h, _⟩ := h
      cases h
  | object fields =>
      refine iff_of_false ?_ nofun
      intro h
      obtain ⟨_, _, h, _⟩ := h
      cases h
  | _ => exact eq_comm

theorem mapVariant_eq_ok {depth : Nat} {constructorName : String} {part : Option Value} {mapped : QueryValue}
    (h : mapValue locale depth (.variant constructorName part) = .ok mapped) :
    ∃ inner, PartMaps locale (depth + 1) part inner ∧
      mapped = .object [("tag", .text constructorName), ("value", inner)] := by
  rw [mapValue] at h
  cases part with
  | none => cases withinDepth_eq_ok h
  | some value =>
      obtain ⟨tag, htag, htagged⟩ := bind_eq_ok.mp (withinDepth_eq_ok h)
      obtain ⟨inner, hinner, hobject⟩ := bind_eq_ok.mp htagged
      obtain rfl := validNameString_eq_ok htag
      exact ⟨inner, ⟨value, rfl, hinner⟩, (Except.ok.inj hobject).symm⟩

/-- The mapping of a scalar to text, at any depth. -/
theorem withinDepth_text {depth : Nat} {result : Checked String} {mapped : QueryValue}
    (h : withinDepth depth (.text <$> result) = .ok mapped) : ∃ text, result = .ok text ∧ mapped = .text text := by
  obtain ⟨text, htext, rfl⟩ := map_eq_ok (withinDepth_eq_ok h)
  exact ⟨text, htext, rfl⟩

/-! ## The JSON of values that coincide -/

/-- The mapping of two values gives the same JSON. -/
def MapAlike (locale : Collation) (value value' : Value) : Prop :=
  ∀ depth depth' mapped mapped', mapValue locale depth value = .ok mapped → mapValue locale depth' value' = .ok mapped' →
    SameJson mapped mapped'

theorem sameJson_of_parts {depth depth' : Nat} {part part' : Option Value} {mapped mapped' : QueryValue}
    (hstep : ∀ inner ∈ part, ∀ inner' ∈ part', Coincide inner inner' → MapAlike locale inner inner')
    (halike : PartAlike coinciding part part') (hmaps : PartMaps locale depth part mapped)
    (hmaps' : PartMaps locale depth' part' mapped') : SameJson mapped mapped' := by
  obtain ⟨inner, rfl, hinner⟩ := hmaps
  obtain ⟨inner', rfl, hinner'⟩ := hmaps'
  obtain ⟨_, hsome, halikeInner⟩ := halike
  obtain rfl := Option.some.inj hsome
  exact hstep inner rfl inner' rfl halikeInner _ _ _ _ hinner hinner'

/-- The properties of two lists of entries are the same when the entries coincide in some order. -/
theorem sameJson_of_entries {depth depth' : Nat} {entries entries' listed : List Entry}
    {properties properties' : List (String × QueryValue)}
    (hmaps : List.Forall₂ (EntryMaps locale depth) entries properties)
    (hmaps' : List.Forall₂ (EntryMaps locale depth') entries' properties') (hperm : listed.Perm entries')
    (halike : EntriesAlike coinciding entries listed)
    (hstep : ∀ entry ∈ entries, ∀ entry' ∈ entries', ∀ inner ∈ entry.2, ∀ inner' ∈ entry'.2, Coincide inner inner' →
      MapAlike locale inner inner') : SameJson (.object properties) (.object properties') := by
  obtain ⟨fields, hfields, hpermFields⟩ := List.perm_comp_forall₂ hperm hmaps'
  refine ⟨properties', fields, rfl, hpermFields, sameFields_iff.mpr ?_⟩
  refine forall₂_images (entriesAlike_iff.mp halike) hmaps hfields ?_
  intro entry hentry entry' hentry' hboth property property' hproperty hproperty'
  refine ⟨hproperty'.1.trans (hboth.1.trans hproperty.1.symm), ?_⟩
  exact sameJson_of_parts (hstep entry hentry entry' (hperm.mem_iff.mp hentry')) hboth.2 hproperty.2 hproperty'.2

theorem mapAlike_of_coincide (value : Value) {value' : Value} (h : Coincide value value') : MapAlike locale value value' := by
  induction value using parts_induction generalizing value' with
  | step value ih =>
  intro depth depth' mapped mapped' hmapped hmapped'
  cases value with
  | list elements =>
      obtain ⟨elements', rfl, halike⟩ := h
      rw [mapValue] at hmapped hmapped'
      obtain ⟨items, hitems, rfl⟩ := map_eq_ok (withinDepth_eq_ok hmapped)
      obtain ⟨items', hitems', rfl⟩ := map_eq_ok (withinDepth_eq_ok hmapped')
      refine ⟨items', rfl, sameItems_iff.mpr ?_⟩
      refine forall₂_images (itemsAlike_iff.mp halike) (mapItems_eq_ok hitems) (mapItems_eq_ok hitems') ?_
      intro element helement element' _ hboth item item' hitem hitem'
      exact ih element helement hboth _ _ _ _ hitem hitem'
  | textMap entries =>
      obtain ⟨entries', listed, rfl, hperm, halike, _⟩ := h
      rw [mapValue] at hmapped hmapped'
      obtain ⟨properties, hproperties, rfl⟩ := map_eq_ok (withinDepth_eq_ok hmapped)
      obtain ⟨properties', hproperties', rfl⟩ := map_eq_ok (withinDepth_eq_ok hmapped')
      obtain ⟨added, rfl, hadded, _⟩ := mapTextMap_eq_ok hproperties
      obtain ⟨added', rfl, hadded', _⟩ := mapTextMap_eq_ok hproperties'
      refine sameJson_of_entries hadded hadded' hperm halike ?_
      intro entry hentry _ _ inner hinner inner' _ hboth
      exact ih inner (List.mem_filterMap.mpr ⟨entry, hentry, hinner⟩) hboth
  | record fields =>
      obtain ⟨fields', listed, rfl, hperm, halike⟩ := h
      rw [mapValue] at hmapped hmapped'
      obtain ⟨properties, hproperties, rfl⟩ := map_eq_ok (withinDepth_eq_ok hmapped)
      obtain ⟨properties', hproperties', rfl⟩ := map_eq_ok (withinDepth_eq_ok hmapped')
      obtain ⟨added, rfl, hadded, _⟩ := mapRecord_eq_ok hproperties
      obtain ⟨added', rfl, hadded', _⟩ := mapRecord_eq_ok hproperties'
      refine sameJson_of_entries hadded hadded' hperm halike ?_
      intro field hfield _ _ inner hinner inner' _ hboth
      exact ih inner (List.mem_filterMap.mpr ⟨field, hfield, hinner⟩) hboth
  | genMap entries =>
      obtain ⟨entries', listed, rfl, rfl, halike⟩ := h
      rw [mapValue] at hmapped hmapped'
      obtain ⟨items, hitems, rfl⟩ := map_eq_ok (withinDepth_eq_ok hmapped)
      obtain ⟨items', hitems', rfl⟩ := map_eq_ok (withinDepth_eq_ok hmapped')
      refine ⟨items', rfl, sameItems_iff.mpr ?_⟩
      refine forall₂_images (pairsAlike_iff.mp halike) (mapGenMap_eq_ok hitems) (mapGenMap_eq_ok hitems') ?_
      intro pair hpair pair' _ hboth item item' hitem hitem'
      obtain ⟨key, inner, rfl, hkey, hinner⟩ := hitem
      obtain ⟨key', inner', rfl, hkey', hinner'⟩ := hitem'
      have hpart : ∀ part ∈ pair.1.toList ++ pair.2.toList, part ∈ parts (.genMap entries) :=
        fun part hpart => List.mem_flatMap.mpr ⟨pair, hpair, hpart⟩
      have hkeys := sameJson_of_parts (fun part hmem _ _ hcoincide => ih part
        (hpart part (List.mem_append_left _ (Option.mem_toList.mpr hmem))) hcoincide) hboth.1 hkey hkey'
      have hvalues := sameJson_of_parts (fun part hmem _ _ hcoincide => ih part
        (hpart part (List.mem_append_right _ (Option.mem_toList.mpr hmem))) hcoincide) hboth.2 hinner hinner'
      exact ⟨[key', inner'], rfl, sameItems_iff.mpr (.cons hkeys (.cons hvalues .nil))⟩
  | variant constructorName part =>
      obtain ⟨part', rfl, halike⟩ := h
      obtain ⟨inner, hinner, rfl⟩ := mapVariant_eq_ok hmapped
      obtain ⟨inner', hinner', rfl⟩ := mapVariant_eq_ok hmapped'
      have hsame := sameJson_of_parts (fun part hmem _ _ hcoincide => ih part (Option.mem_toList.mpr hmem) hcoincide) halike
        hinner hinner'
      exact ⟨_, _, rfl, .refl _, .text constructorName, _, rfl, rfl, inner', [], rfl, hsame, rfl⟩
  | optional part =>
      obtain ⟨part', rfl, halike⟩ := h
      rw [mapValue] at hmapped hmapped'
      have hmapped := withinDepth_eq_ok hmapped
      have hmapped' := withinDepth_eq_ok hmapped'
      cases part with
      | none =>
          obtain rfl := Except.ok.inj hmapped
          obtain rfl | ⟨inner', rfl, hnothing⟩ := halike
          · exact (Except.ok.inj hmapped').symm
          · exact (mapped_null_iff inner' hmapped').mpr hnothing
      | some inner =>
          obtain ⟨rfl, hnothing⟩ | ⟨inner', rfl, halikeInner⟩ := halike
          · obtain rfl := Except.ok.inj hmapped'
            exact sameJson_null_iff.mpr ((mapped_null_iff inner hmapped).mpr hnothing)
          · exact ih inner List.mem_cons_self halikeInner _ _ _ _ hmapped hmapped'
  | timestamp micros =>
      obtain ⟨micros', rfl, integer, hinteger, hinteger'⟩ := h
      rw [mapValue] at hmapped hmapped'
      obtain ⟨text, htext, rfl⟩ := withinDepth_text hmapped
      obtain ⟨text', htext', rfl⟩ := withinDepth_text hmapped'
      obtain ⟨read, hread, _, rfl⟩ := mapTimestamp_spec htext
      obtain ⟨read', hread', _, rfl⟩ := mapTimestamp_spec htext'
      obtain rfl := Option.some.inj (hread.symm.trans hinteger)
      obtain rfl := Option.some.inj (hread'.symm.trans hinteger')
      rfl
  | int64 value =>
      obtain ⟨value', rfl, rfl⟩ := h
      rw [mapValue] at hmapped hmapped'
      obtain ⟨text, htext, rfl⟩ := withinDepth_text hmapped
      obtain ⟨text', htext', rfl⟩ := withinDepth_text hmapped'
      rw [int64_eq_ok htext, int64_eq_ok htext']
      rfl
  | numeric value =>
      obtain ⟨value', rfl, rfl⟩ := h
      rw [mapValue] at hmapped hmapped'
      obtain ⟨text, htext, rfl⟩ := withinDepth_text hmapped
      obtain ⟨text', htext', rfl⟩ := withinDepth_text hmapped'
      rw [mapNumeric_eq_ok htext, mapNumeric_eq_ok htext']
      rfl
  | date | party | contractId | enum =>
      obtain rfl : value' = _ := h
      rw [mapValue] at hmapped hmapped'
      obtain ⟨text, htext, rfl⟩ := withinDepth_text hmapped
      obtain ⟨text', htext', rfl⟩ := withinDepth_text hmapped'
      obtain rfl := Except.ok.inj (htext.symm.trans htext')
      rfl
  | unit =>
      obtain rfl : value' = _ := h
      rw [mapValue] at hmapped hmapped'
      obtain rfl := Except.ok.inj (withinDepth_eq_ok hmapped)
      obtain rfl := Except.ok.inj (withinDepth_eq_ok hmapped')
      exact ⟨[], [], rfl, .refl _, rfl⟩
  | bool | text =>
      obtain rfl : value' = _ := h
      rw [mapValue] at hmapped hmapped'
      obtain rfl := Except.ok.inj (withinDepth_eq_ok hmapped)
      obtain rfl := Except.ok.inj (withinDepth_eq_ok hmapped')
      rfl
  | unset =>
      rw [mapValue] at hmapped
      cases withinDepth_eq_ok hmapped

/-! ## Values with the same JSON -/

theorem partAlike_of_sameJson {depth depth' : Nat} {part part' : Option Value} {mapped mapped' : QueryValue}
    (hstep : ∀ inner ∈ part, ∀ inner' ∈ part', mapValue locale depth inner = .ok mapped →
      mapValue locale depth' inner' = .ok mapped' → SameJson mapped mapped' → Coincide inner inner')
    (hsame : SameJson mapped mapped') (hmaps : PartMaps locale depth part mapped)
    (hmaps' : PartMaps locale depth' part' mapped') : PartAlike coinciding part part' := by
  obtain ⟨inner, rfl, hinner⟩ := hmaps
  obtain ⟨inner', rfl, hinner'⟩ := hmaps'
  exact ⟨inner', rfl, hstep inner rfl inner' rfl hinner hinner' hsame⟩

/-- Entries with the same properties coincide, in some order. -/
theorem entriesAlike_of_sameJson {depth depth' : Nat} {entries entries' : List Entry}
    {properties properties' : List (String × QueryValue)}
    (hmaps : List.Forall₂ (EntryMaps locale depth) entries properties)
    (hmaps' : List.Forall₂ (EntryMaps locale depth') entries' properties')
    (hstep : ∀ entry ∈ entries, ∀ entry' ∈ entries', entry'.1 = entry.1 → ∀ inner ∈ entry.2, ∀ inner' ∈ entry'.2,
      ∀ mapped mapped', mapValue locale depth inner = .ok mapped → mapValue locale depth' inner' = .ok mapped' →
        SameJson mapped mapped' → Coincide inner inner')
    (h : SameJson (.object properties) (.object properties')) :
    ∃ listed : List Entry, listed.Perm entries' ∧ EntriesAlike coinciding entries listed := by
  obtain ⟨_, fields, hobject, hperm, hsame⟩ := h
  obtain rfl := QueryValue.object.inj hobject
  obtain ⟨listed, hlisted, hpermEntries⟩ := List.perm_comp_forall₂ hperm hmaps'.flip
  refine ⟨listed, hpermEntries, entriesAlike_iff.mpr ?_⟩
  refine forall₂_images (sameFields_iff.mp hsame) (forall₂_with_mem hmaps).flip (forall₂_with_mem hlisted.flip).flip ?_
  intro property _ property' _ hboth entry entry' hentry hentry'
  obtain ⟨hmem, hkey, hpart⟩ := hentry
  obtain ⟨hmem', hkey', hpart'⟩ := hentry'
  have hkeys : entry'.1 = entry.1 := hkey'.symm.trans (hboth.1.trans hkey)
  refine ⟨hkeys, partAlike_of_sameJson ?_ hboth.2 hpart hpart'⟩
  exact fun inner hinner inner' hinner' => hstep entry hmem entry' (hpermEntries.mem_iff.mp hmem') hkeys inner hinner
    inner' hinner' _ _

/-- The JSON of two variants is the same when tags and values are. -/
theorem sameJson_variant {tag tag' : String} {inner inner' : QueryValue}
    (h : SameJson (.object [("tag", .text tag), ("value", inner)]) (.object [("tag", .text tag'), ("value", inner')])) :
    tag' = tag ∧ SameJson inner inner' := by
  obtain ⟨_, listed, hobject, hperm, tagJson, rest, rfl, htag, valueJson, _, rfl, hvalue, rfl⟩ := h
  obtain rfl := QueryValue.object.inj hobject
  have htagMem := hperm.mem_iff.mp List.mem_cons_self
  have hvalueMem := hperm.mem_iff.mp (List.mem_cons_of_mem _ List.mem_cons_self)
  simp only [List.mem_cons, List.not_mem_nil, or_false, Prod.mk.injEq, String.reduceEq, false_and, true_and,
    false_or] at htagMem hvalueMem
  obtain rfl : tagJson = .text tag := htag
  exact ⟨(QueryValue.text.inj htagMem).symm, hvalueMem ▸ hvalue⟩

/-- Accepted values of one type that are mapped to the same JSON coincide. -/
theorem coincide_of_sameJson (value : Value) {value' : Value} {descriptor : DamlTypeDescriptor} {depth depth' : Nat}
    {mapped mapped' : QueryValue} (htype : HasType registry descriptor value) (htype' : HasType registry descriptor value')
    (hmapped : mapValue locale depth value = .ok mapped) (hmapped' : mapValue locale depth' value' = .ok mapped')
    (hsame : SameJson mapped mapped') : Coincide value value' := by
  induction value using parts_induction generalizing value' descriptor depth depth' mapped mapped' with
  | step value ih =>
  have hkind := kind_eq_of_hasType htype htype'
  cases value with
  | list elements =>
      cases value' with
      | list elements' =>
          obtain ⟨element, hresolves, htypes⟩ := list_hasType htype
          obtain ⟨other, hresolves', htypes'⟩ := list_hasType htype'
          obtain rfl := DamlTypeDescriptor.list.inj (resolves_unique hresolves hresolves')
          rw [mapValue] at hmapped hmapped'
          obtain ⟨items, hitems, rfl⟩ := map_eq_ok (withinDepth_eq_ok hmapped)
          obtain ⟨items', hitems', rfl⟩ := map_eq_ok (withinDepth_eq_ok hmapped')
          obtain ⟨_, harray, hsame⟩ := hsame
          obtain rfl := QueryValue.array.inj harray
          refine ⟨elements', rfl, itemsAlike_iff.mpr ?_⟩
          refine forall₂_images (sameItems_iff.mp hsame) (forall₂_with_mem (mapItems_eq_ok hitems)).flip
            (forall₂_with_mem (mapItems_eq_ok hitems')).flip ?_
          intro item _ item' _ hboth inner inner' hinner hinner'
          exact ih inner hinner.1 (htypes inner hinner.1) (htypes' inner' hinner'.1) hinner.2 hinner'.2 hboth
      | _ => cases hkind
  | textMap entries =>
      cases value' with
      | textMap entries' =>
          obtain ⟨element, hresolves, htypes⟩ := textMap_hasType htype
          obtain ⟨other, hresolves', htypes'⟩ := textMap_hasType htype'
          obtain rfl := DamlTypeDescriptor.textMap.inj (resolves_unique hresolves hresolves')
          rw [mapValue] at hmapped hmapped'
          obtain ⟨properties, hproperties, rfl⟩ := map_eq_ok (withinDepth_eq_ok hmapped)
          obtain ⟨properties', hproperties', rfl⟩ := map_eq_ok (withinDepth_eq_ok hmapped')
          obtain ⟨added, rfl, hadded, _⟩ := mapTextMap_eq_ok hproperties
          obtain ⟨added', rfl, hadded', _⟩ := mapTextMap_eq_ok hproperties'
          obtain ⟨listed, hperm, halike⟩ := entriesAlike_of_sameJson hadded hadded' (fun entry hentry entry' hentry' _ inner
            hinner inner' hinner' _ _ => ih inner (List.mem_filterMap.mpr ⟨entry, hentry, hinner⟩)
              (htypes entry hentry inner hinner) (htypes' entry' hentry' inner' hinner')) hsame
          exact ⟨entries', listed, rfl, hperm, halike, trivial⟩
      | _ => cases hkind
  | record fields =>
      cases value' with
      | record fields' =>
          rw [mapValue] at hmapped hmapped'
          obtain ⟨properties, hproperties, rfl⟩ := map_eq_ok (withinDepth_eq_ok hmapped)
          obtain ⟨properties', hproperties', rfl⟩ := map_eq_ok (withinDepth_eq_ok hmapped')
          obtain ⟨added, rfl, hadded, hlabelled⟩ := mapRecord_eq_ok hproperties
          obtain ⟨added', rfl, hadded', hlabelled'⟩ := mapRecord_eq_ok hproperties'
          obtain ⟨descriptorFields, hresolves, htypes⟩ := record_hasType htype hlabelled
          obtain ⟨others, hresolves', htypes'⟩ := record_hasType htype' hlabelled'
          obtain rfl := DamlTypeDescriptor.record.inj (resolves_unique hresolves hresolves')
          have hstep : ∀ field ∈ fields, ∀ field' ∈ fields', field'.1 = field.1 → ∀ inner ∈ field.2, ∀ inner' ∈ field'.2,
              ∀ mapped mapped', mapValue locale (depth + 1) inner = .ok mapped →
                mapValue locale (depth' + 1) inner' = .ok mapped' → SameJson mapped mapped' → Coincide inner inner' := by
            intro field hfield field' hfield' hlabels inner hinner inner' hinner' _ _
            obtain ⟨⟨descriptorField, hdescriptorField, hlabel⟩, htypesField⟩ := htypes field hfield
            exact ih inner (List.mem_filterMap.mpr ⟨field, hfield, hinner⟩)
              (htypesField descriptorField hdescriptorField hlabel inner hinner)
              ((htypes' field' hfield').2 descriptorField hdescriptorField (hlabel.trans hlabels.symm) inner' hinner')
          obtain ⟨listed, hperm, halike⟩ := entriesAlike_of_sameJson hadded hadded' hstep hsame
          exact ⟨fields', listed, rfl, hperm, halike⟩
      | _ => cases hkind
  | genMap entries =>
      cases value' with
      | genMap entries' =>
          obtain ⟨key, element, hresolves, htypes⟩ := genMap_hasType htype
          obtain ⟨key', other, hresolves', htypes'⟩ := genMap_hasType htype'
          obtain ⟨rfl, rfl⟩ := DamlTypeDescriptor.genMap.inj (resolves_unique hresolves hresolves')
          rw [mapValue] at hmapped hmapped'
          obtain ⟨items, hitems, rfl⟩ := map_eq_ok (withinDepth_eq_ok hmapped)
          obtain ⟨items', hitems', rfl⟩ := map_eq_ok (withinDepth_eq_ok hmapped')
          obtain ⟨_, harray, hsame⟩ := hsame
          obtain rfl := QueryValue.array.inj harray
          refine ⟨entries', entries', rfl, rfl, pairsAlike_iff.mpr ?_⟩
          refine forall₂_images (sameItems_iff.mp hsame) (forall₂_with_mem (mapGenMap_eq_ok hitems)).flip
            (forall₂_with_mem (mapGenMap_eq_ok hitems')).flip ?_
          intro item _ item' _ hboth pair pair' hpair hpair'
          obtain ⟨hmem, keyJson, valueJson, rfl, hkey, hvalue⟩ := hpair
          obtain ⟨hmem', keyJson', valueJson', rfl, hkey', hvalue'⟩ := hpair'
          obtain ⟨_, harray, hitemsSame⟩ := hboth
          obtain rfl := QueryValue.array.inj harray
          obtain ⟨_, _, hlist, hkeySame, _, _, hlast, hvalueSame, _⟩ := hitemsSame
          obtain ⟨rfl, hrest⟩ := List.cons.inj hlist
          obtain ⟨rfl, _⟩ := List.cons.inj (hrest.trans hlast)
          have hpart : ∀ part ∈ pair.1.toList ++ pair.2.toList, part ∈ parts (.genMap entries) :=
            fun part hpart => List.mem_flatMap.mpr ⟨pair, hmem, hpart⟩
          constructor
          · refine partAlike_of_sameJson ?_ hkeySame hkey hkey'
            intro inner hinner inner' hinner'
            exact ih inner (hpart inner (List.mem_append_left _ (Option.mem_toList.mpr hinner)))
              ((htypes pair hmem).1 inner hinner) ((htypes' pair' hmem').1 inner' hinner')
          · refine partAlike_of_sameJson ?_ hvalueSame hvalue hvalue'
            intro inner hinner inner' hinner'
            exact ih inner (hpart inner (List.mem_append_right _ (Option.mem_toList.mpr hinner)))
              ((htypes pair hmem).2 inner hinner) ((htypes' pair' hmem').2 inner' hinner')
      | _ => cases hkind
  | variant constructorName part =>
      cases value' with
      | variant constructorName' part' =>
          obtain ⟨constructors, found, hresolves, hfound, htypes⟩ := variant_hasType htype
          obtain ⟨others, found', hresolves', hfound', htypes'⟩ := variant_hasType htype'
          obtain rfl := DamlTypeDescriptor.variant.inj (resolves_unique hresolves hresolves')
          obtain ⟨inner, hinner, rfl⟩ := mapVariant_eq_ok hmapped
          obtain ⟨inner', hinner', rfl⟩ := mapVariant_eq_ok hmapped'
          obtain ⟨rfl, hvalues⟩ := sameJson_variant hsame
          obtain rfl := Option.some.inj (hfound.symm.trans hfound')
          refine ⟨part', rfl, partAlike_of_sameJson ?_ hvalues hinner hinner'⟩
          intro part hpart part' hpart'
          exact ih part (Option.mem_toList.mpr hpart) (htypes part hpart) (htypes' part' hpart')
      | _ => cases hkind
  | optional part =>
      cases value' with
      | optional part' =>
          obtain ⟨element, hresolves, htypes⟩ := optional_hasType htype
          obtain ⟨other, hresolves', htypes'⟩ := optional_hasType htype'
          obtain rfl := DamlTypeDescriptor.optional.inj (resolves_unique hresolves hresolves')
          rw [mapValue] at hmapped hmapped'
          have hmapped := withinDepth_eq_ok hmapped
          have hmapped' := withinDepth_eq_ok hmapped'
          refine ⟨part', rfl, ?_⟩
          cases part with
          | none =>
              obtain rfl := Except.ok.inj hmapped
              cases part' with
              | none => exact .inl rfl
              | some inner' => exact .inr ⟨inner', rfl, (mapped_null_iff inner' hmapped').mp hsame⟩
          | some inner =>
              cases part' with
              | none =>
                  obtain rfl := Except.ok.inj hmapped'
                  exact .inl ⟨rfl, (mapped_null_iff inner hmapped).mp (sameJson_null_iff.mp hsame)⟩
              | some inner' =>
                  exact .inr ⟨inner', rfl, ih inner List.mem_cons_self (htypes inner rfl) (htypes' inner' rfl) hmapped
                    hmapped' hsame⟩
      | _ => cases hkind
  | timestamp micros =>
      cases value' with
      | timestamp micros' =>
          rw [mapValue] at hmapped hmapped'
          obtain ⟨text, htext, rfl⟩ := withinDepth_text hmapped
          obtain ⟨text', htext', rfl⟩ := withinDepth_text hmapped'
          obtain ⟨read, hread, hrange, rfl⟩ := mapTimestamp_spec htext
          obtain ⟨read', hread', hrange', rfl⟩ := mapTimestamp_spec htext'
          obtain rfl := timestampText_injective hrange hrange' (QueryValue.text.inj hsame).symm
          exact ⟨micros', rfl, read, hread, hread'⟩
      | _ => cases hkind
  | date epochDay =>
      cases value' with
      | date epochDay' =>
          rw [mapValue] at hmapped hmapped'
          obtain ⟨text, htext, rfl⟩ := withinDepth_text hmapped
          obtain ⟨text', htext', rfl⟩ := withinDepth_text hmapped'
          obtain ⟨hrange, rfl⟩ := mapDate_spec htext
          obtain ⟨hrange', rfl⟩ := mapDate_spec htext'
          obtain rfl := isoDay_injective (by omega) (by omega) (QueryValue.text.inj hsame).symm
          rfl
      | _ => cases hkind
  | int64 value =>
      cases value' with
      | int64 value' =>
          rw [mapValue] at hmapped hmapped'
          obtain ⟨text, htext, rfl⟩ := withinDepth_text hmapped
          obtain ⟨text', htext', rfl⟩ := withinDepth_text hmapped'
          obtain rfl := int64_eq_ok htext
          obtain rfl := int64_eq_ok htext'
          exact ⟨_, rfl, (QueryValue.text.inj hsame).symm⟩
      | _ => cases hkind
  | numeric value =>
      cases value' with
      | numeric value' =>
          rw [mapValue] at hmapped hmapped'
          obtain ⟨text, htext, rfl⟩ := withinDepth_text hmapped
          obtain ⟨text', htext', rfl⟩ := withinDepth_text hmapped'
          obtain rfl := mapNumeric_eq_ok htext
          obtain rfl := mapNumeric_eq_ok htext'
          exact ⟨_, rfl, (QueryValue.text.inj hsame).symm⟩
      | _ => cases hkind
  | party value =>
      cases value' with
      | party value' =>
          rw [mapValue] at hmapped hmapped'
          obtain ⟨text, htext, rfl⟩ := withinDepth_text hmapped
          obtain ⟨text', htext', rfl⟩ := withinDepth_text hmapped'
          obtain rfl := validPartyId_eq_ok htext
          obtain rfl := validPartyId_eq_ok htext'
          obtain rfl := QueryValue.text.inj hsame
          rfl
      | _ => cases hkind
  | contractId value =>
      cases value' with
      | contractId value' =>
          rw [mapValue] at hmapped hmapped'
          obtain ⟨text, htext, rfl⟩ := withinDepth_text hmapped
          obtain ⟨text', htext', rfl⟩ := withinDepth_text hmapped'
          obtain rfl := validLedgerString_eq_ok htext
          obtain rfl := validLedgerString_eq_ok htext'
          obtain rfl := QueryValue.text.inj hsame
          rfl
      | _ => cases hkind
  | enum constructorName =>
      cases value' with
      | enum constructorName' =>
          rw [mapValue] at hmapped hmapped'
          obtain ⟨text, htext, rfl⟩ := withinDepth_text hmapped
          obtain ⟨text', htext', rfl⟩ := withinDepth_text hmapped'
          obtain rfl := validNameString_eq_ok htext
          obtain rfl := validNameString_eq_ok htext'
          obtain rfl := QueryValue.text.inj hsame
          rfl
      | _ => cases hkind
  | text value =>
      cases value' with
      | text value' =>
          rw [mapValue] at hmapped hmapped'
          obtain rfl := Except.ok.inj (withinDepth_eq_ok hmapped)
          obtain rfl := Except.ok.inj (withinDepth_eq_ok hmapped')
          obtain rfl := QueryValue.text.inj hsame
          rfl
      | _ => cases hkind
  | bool value =>
      cases value' with
      | bool value' =>
          rw [mapValue] at hmapped hmapped'
          obtain rfl := Except.ok.inj (withinDepth_eq_ok hmapped)
          obtain rfl := Except.ok.inj (withinDepth_eq_ok hmapped')
          obtain rfl := QueryValue.bool.inj hsame
          rfl
      | _ => cases hkind
  | unit =>
      cases value' with
      | unit => rfl
      | _ => cases hkind
  | unset =>
      rw [mapValue] at hmapped
      cases withinDepth_eq_ok hmapped

/-! ## Collisions -/

/-- Of two accepted values of one type, different DAML values are mapped to different JSON, if and only if the two
denote one DAML value or differ in more than the depth at which an optional is absent. -/
theorem images_differ_iff {descriptor : DamlTypeDescriptor} {value value' : Value} {mapped mapped' : QueryValue}
    (htype : HasType registry descriptor value) (htype' : HasType registry descriptor value')
    (hmapped : mapGrpcQueryValue locale value = .ok mapped) (hmapped' : mapGrpcQueryValue locale value' = .ok mapped') :
    (¬ SameValue value value' → ¬ SameJson mapped mapped') ↔ (SameValue value value' ∨ ¬ Coincide value value') := by
  have hsame : SameJson mapped mapped' ↔ Coincide value value' :=
    ⟨coincide_of_sameJson value htype htype' hmapped hmapped',
      fun h => mapAlike_of_coincide value h 0 0 mapped mapped' hmapped hmapped'⟩
  rw [hsame]
  constructor
  · intro h
    by_cases hdenote : SameValue value value'
    · exact .inl hdenote
    · exact .inr (h hdenote)
  · intro h hdenote
    exact h.resolve_left hdenote

/-- A type of nested optionals. -/
def nestedOptional : DamlTypeDescriptor := .optional (.optional (.primitive .unit none))

theorem absent_hasType : HasType (fun _ _ => none) nestedOptional (.optional none) := ⟨.absent, 1, rfl⟩

theorem present_absent_hasType : HasType (fun _ _ => none) nestedOptional (.optional (some (.optional none))) :=
  ⟨.present .absent, 2, rfl⟩

theorem images_differ_optional :
    (¬ SameValue (.optional none) (.optional (some (.optional (some .unit)))) → ¬ SameJson .null (.object [])) ↔
      (SameValue (.optional none) (.optional (some (.optional (some .unit)))) ∨
        ¬ Coincide (.optional none) (.optional (some (.optional (some .unit))))) :=
  @images_differ_iff Collation.codeUnits (fun _ _ => none) nestedOptional _ _ _ _ absent_hasType
    ⟨.present (.present .unit), 3, rfl⟩ rfl rfl

/-- An absent optional and one that holds an absent one are different values of one type with the same JSON. -/
theorem nested_optionals_collide :
    HasType (fun _ _ => none) nestedOptional (.optional none) ∧
      HasType (fun _ _ => none) nestedOptional (.optional (some (.optional none))) ∧
      ¬ SameValue (.optional none) (.optional (some (.optional none))) ∧
      mapGrpcQueryValue Collation.codeUnits (.optional none) = .ok .null ∧
      mapGrpcQueryValue Collation.codeUnits (.optional (some (.optional none))) = .ok .null := by
  refine ⟨absent_hasType, present_absent_hasType, ?_, rfl, rfl⟩
  intro h
  obtain ⟨part, hoptional, halike⟩ := h
  obtain rfl := Value.optional.inj hoptional
  obtain hnone | ⟨_, _, hnever⟩ := halike
  · cases hnone
  · exact hnever

end CantonSdk.DamlValues
