import CantonSdk.Debugger.Comparison

/-!
# Values that compare equal

Untyped values that compare equal stand for one DAML value, wherever the comparison discerns the values that
they stand for.
-/

set_option linter.all false

namespace CantonSdk.Debugger

open CantonSdk.Base HostValue

variable {left right : List (String × HostValue)}

/-! ## Objects with the same keys -/

theorem isPositional_of_keys (h : ∀ key ∈ left.map Prod.fst, isPositionalKey key = true) :
    isPositional left = true := by
  rw [isPositional, List.all_eq_true]
  intro property hproperty
  exact h _ (List.mem_map_of_mem hproperty)

theorem isPositional_of_named (h : ∀ key ∈ left.map Prod.fst, isPositionalKey key = false) :
    isPositional left = left.isEmpty := by
  cases left with
  | nil => rfl
  | cons property rest =>
      rw [isPositional, List.all_cons, h _ (List.mem_cons_self ..)]
      rfl

theorem sameShape_of_positional (hleft : ∀ key ∈ left.map Prod.fst, isPositionalKey key = true)
    (hright : ∀ key ∈ right.map Prod.fst, isPositionalKey key = true) : SameShape left right := by
  have hshown : ∀ properties : List (String × HostValue),
      (∀ key ∈ properties.map Prod.fst, isPositionalKey key = true) →
      isPositional (normalizeComparableProperties properties) = true := by
    intro properties h
    exact isPositional_of_keys fun key hkey => h key ((keys_normalizeComparableProperties _).subset hkey)
  exact Or.inl ((hshown left hleft).trans (hshown right hright).symm)

theorem sameShape_of_named (hleft : ∀ key ∈ left.map Prod.fst, isPositionalKey key = false)
    (hright : ∀ key ∈ right.map Prod.fst, isPositionalKey key = false) : SameShape left right := by
  have hshown : ∀ properties : List (String × HostValue),
      (∀ key ∈ properties.map Prod.fst, isPositionalKey key = false) →
      isPositional (normalizeComparableProperties properties)
        = (normalizeComparableProperties properties).isEmpty := by
    intro properties h
    exact isPositional_of_named fun key hkey => h key ((keys_normalizeComparableProperties _).subset hkey)
  unfold SameShape
  rw [hshown left hleft, hshown right hright]
  cases normalizeComparableProperties left <;> cases normalizeComparableProperties right <;> simp

/-- Ascending numeric keys ascend among those that are shown. -/
theorem ascending_shown (h : left.Pairwise fun first second => decimalValue first.1 < decimalValue second.1) :
    (normalizeComparableProperties left).Pairwise fun first second =>
      decimalValue first.1 < decimalValue second.1 := by
  have hkeys : (left.map Prod.fst).Pairwise fun first second => decimalValue first < decimalValue second :=
    List.pairwise_map.mpr h
  have hshown := hkeys.sublist (keys_normalizeComparableProperties left)
  rwa [List.pairwise_map] at hshown

/-- Nothing, or the marker for the type of a record. -/
def IsTypeMarker (marker : List (String × HostValue)) : Prop :=
  marker = [] ∨ ∃ recordId, marker = [(recordIdMarkerKey, recordId)]

section Objects

variable {marker marker' : List (String × HostValue)}
  (hmarker : IsTypeMarker marker) (hmarker' : IsTypeMarker marker')
  (hnodup : (left.map Prod.fst).Nodup) (hunmarked : Unmarked left)
  (hnodup' : (right.map Prod.fst).Nodup) (hunmarked' : Unmarked right)
  (h : valuesEqual (normalizeComparableValue (.object (ownOrder (left ++ marker))))
    (normalizeComparableValue (.object (ownOrder (right ++ marker')))) = true)

include hmarker hmarker' hnodup hunmarked hnodup' hunmarked' h

/-- Equal objects of one shape show the same keys, and match at every key that they have in common. -/
theorem matches_at_keys (hshape : SameShape left right) :
    (∀ key, key ≠ recordIdMarkerKey →
      ((∃ value, (key, value) ∈ left ∧ isNullish value = false) ↔
        ∃ value, (key, value) ∈ right ∧ isNullish value = false)) ∧
      ∀ key value other, (key, value) ∈ left → (key, other) ∈ right → Matches value other := by
  obtain ⟨shownLeft, heqLeft, hpermLeft, _⟩ := normalizeComparableValue_object hnodup hunmarked hmarker
  obtain ⟨shownRight, heqRight, hpermRight, _⟩ := normalizeComparableValue_object hnodup' hunmarked' hmarker'
  rw [heqLeft, heqRight] at h
  refine ⟨fun key hkey => shown_iff hpermLeft hpermRight hnodup' h hshape hkey, ?_⟩
  intro key value other hvalue hother
  have hkey := (ne_of_not_isMarkerKey (hunmarked key (List.mem_map_of_mem hvalue))).2.2
  exact matches_of_mem hpermLeft hpermRight hnodup hnodup' h hshape hkey hvalue hother

/-- Numeric keys on the left and names on the right are matched in order. -/
theorem matches_in_order (hpositional : ∀ key ∈ left.map Prod.fst, isPositionalKey key = true)
    (hsorted : left.Pairwise fun first second => decimalValue first.1 < decimalValue second.1)
    (hnamed : ∀ key ∈ right.map Prod.fst, isPositionalKey key = false)
    (hplaces : left.map (fun property => isNullish property.2) = right.map fun property => isNullish property.2) :
    List.Forall₂ Matches (left.map Prod.snd) (right.map Prod.snd) := by
  obtain ⟨shown, heq, hperm, _⟩ := normalizeComparableValue_object hnodup hunmarked hmarker
  obtain ⟨shown', heq', hperm', hnames⟩ := normalizeComparableValue_object hnodup' hunmarked' hmarker'
  obtain rfl := hnames hnamed
  rw [heq, heq'] at h
  refine forall₂_of_shown (fun key hkey => (ne_of_not_isMarkerKey (hunmarked key hkey)).2.2)
    (fun key hkey => (ne_of_not_isMarkerKey (hunmarked' key hkey)).2.2) hplaces ?_
  have hkeys := keys_normalizeComparableProperties left
  have hflag : isPositional shown = true :=
    isPositional_of_keys fun key hkey => hpositional key (hkeys.subset ((hperm.map _).mem_iff.mp hkey))
  have hflag' := isPositional_of_named fun key hkey =>
    hnamed key ((keys_normalizeComparableProperties right).subset hkey)
  cases hempty : (normalizeComparableProperties right).isEmpty with
  | true =>
      rw [List.isEmpty_iff] at hempty
      have hlength := length_eq_of_valuesEqual h
      rw [hempty, hperm.length_eq, List.length_nil, List.length_eq_zero_iff] at hlength
      rw [hempty, hlength]
      exact .nil
  | false =>
      rw [hempty] at hflag'
      have hshownNodup : (shown.map Prod.fst).Nodup := (hperm.map _).nodup_iff.mpr (hnodup.sublist hkeys)
      have hordered := valuesEqual_ordered hflag hflag' hshownNodup h
      rwa [sortPositional_eq hperm (ascending_shown hsorted)] at hordered

/-- Names on the left and numeric keys on the right are matched in order. -/
theorem matches_in_order_right (hpositional : ∀ key ∈ right.map Prod.fst, isPositionalKey key = true)
    (hsorted : right.Pairwise fun first second => decimalValue first.1 < decimalValue second.1)
    (hnamed : ∀ key ∈ left.map Prod.fst, isPositionalKey key = false)
    (hplaces : left.map (fun property => isNullish property.2) = right.map fun property => isNullish property.2) :
    List.Forall₂ Matches (left.map Prod.snd) (right.map Prod.snd) := by
  obtain ⟨shown, heq, hperm, hnames⟩ := normalizeComparableValue_object hnodup hunmarked hmarker
  obtain ⟨shown', heq', hperm', _⟩ := normalizeComparableValue_object hnodup' hunmarked' hmarker'
  obtain rfl := hnames hnamed
  rw [heq, heq'] at h
  refine forall₂_of_shown (fun key hkey => (ne_of_not_isMarkerKey (hunmarked key hkey)).2.2)
    (fun key hkey => (ne_of_not_isMarkerKey (hunmarked' key hkey)).2.2) hplaces ?_
  have hkeys := keys_normalizeComparableProperties right
  have hflag : isPositional shown' = true :=
    isPositional_of_keys fun key hkey => hpositional key (hkeys.subset ((hperm'.map _).mem_iff.mp hkey))
  have hflag' := isPositional_of_named fun key hkey =>
    hnamed key ((keys_normalizeComparableProperties left).subset hkey)
  cases hempty : (normalizeComparableProperties left).isEmpty with
  | true =>
      rw [List.isEmpty_iff] at hempty
      have hlength := length_eq_of_valuesEqual h
      rw [hempty, hperm'.length_eq, List.length_nil, eq_comm, List.length_eq_zero_iff] at hlength
      rw [hempty, hlength]
      exact .nil
  | false =>
      rw [hempty] at hflag'
      have hordered := valuesEqual_ordered_right hflag' hflag h
      rwa [sortPositional_eq hperm' (ascending_shown hsorted)] at hordered

end Objects

/-- Objects with the same names match value by value. -/
theorem matches_of_sameNames (hkeys : left.map Prod.fst = right.map Prod.fst)
    (hnodup : (left.map Prod.fst).Nodup) (hunmarked : Unmarked left)
    (hnamed : ∀ key ∈ left.map Prod.fst, isPositionalKey key = false)
    (h : valuesEqual (normalizeComparableValue (.object left)) (normalizeComparableValue (.object right)) = true) :
    List.Forall₂ Matches (left.map Prod.snd) (right.map Prod.snd) := by
  have hself : ∀ properties : List (String × HostValue), properties.map Prod.fst = left.map Prod.fst →
      ownOrder (properties ++ []) = properties := by
    intro properties heq
    rw [List.append_nil]
    refine ownOrder_eq_self fun property hproperty => ?_
    exact arrayIndex_of_not_isPositionalKey (hnamed _ (heq ▸ List.mem_map_of_mem hproperty))
  rw [← hself left rfl, ← hself right hkeys.symm] at h
  have hunmarked' : Unmarked right := by
    unfold Unmarked
    rwa [← hkeys]
  have hshape : SameShape left right := sameShape_of_named hnamed (hkeys ▸ hnamed)
  exact forall₂_of_mem hkeys
    (matches_at_keys (Or.inl rfl) (Or.inl rfl) hnodup hunmarked (hkeys ▸ hnodup) hunmarked' h hshape).2

/-- Objects with two names match at both. -/
theorem matches_of_pair {first second : String} {a b a' b' : HostValue}
    (hnames : [first, second].Nodup ∧ ∀ key ∈ [first, second], isMarkerKey key = false ∧ isPositionalKey key = false)
    (h : valuesEqual (normalizeComparableValue (.object [(first, a), (second, b)]))
      (normalizeComparableValue (.object [(first, a'), (second, b')])) = true) :
    Matches a a' ∧ Matches b b' := by
  have hkeys : [(first, a), (second, b)].map Prod.fst = [(first, a'), (second, b')].map Prod.fst := rfl
  have hmatches := matches_of_sameNames hkeys hnames.1 (fun key hkey => (hnames.2 key hkey).1)
    (fun key hkey => (hnames.2 key hkey).2) h
  simpa using hmatches

/-! ## Encodings -/

theorem isNullish_of_encodes {value : LedgerValue} {h : HostValue} (hencodes : Encodes value h) :
    isNullish h = value.isNullish := by
  fun_induction LedgerValue.isNullish value with
  | case1 => rw [hencodes]; rfl
  | case2 => rcases hencodes with rfl | rfl <;> rfl
  | case3 value ih => exact ih hencodes
  | case4 value hunit hnone hsome =>
      cases value with
      | unit => exact absurd rfl hunit
      | optional value =>
          cases value with
          | none => exact absurd rfl hnone
          | some value => exact absurd rfl (hsome value)
      | bool | int64 | date | timestamp | party | text | contractId | enum => rw [hencodes]; rfl
      | numeric => rcases hencodes with rfl | rfl <;> rfl
      | list | textMap | genMap | variant =>
          obtain ⟨_, rfl, _⟩ := hencodes
          rfl
      | record =>
          obtain ⟨_, _, rfl, _⟩ := hencodes
          rfl

/-- Values that are not shown are the same where they are discerned. -/
theorem sameValue_of_nullish {value other : LedgerValue} (hvalue : value.isNullish = true)
    (hother : other.isNullish = true) (h : discerned value other = true) : SameValue value other := by
  fun_induction LedgerValue.isNullish value generalizing other with
  | case1 => cases other <;> simp_all [discerned, SameValue]
  | case2 =>
      cases other with
      | optional other =>
          cases other with
          | none => trivial
          | some other =>
              rw [LedgerValue.isNullish] at hother
              simp [discerned, hother] at h
      | _ => cases h
  | case3 value ih =>
      cases other with
      | optional other =>
          cases other with
          | none => simp [discerned, hvalue] at h
          | some other => exact ih hvalue hother h
      | _ => cases h
  | case4 => cases hvalue

theorem keys_of_encodesEntries {entries : List (String × LedgerValue)} (h : EncodesEntries entries left) :
    left.map Prod.fst = entries.map Prod.fst := by
  induction entries generalizing left with
  | nil =>
      obtain rfl := h
      rfl
  | cons entry rest ih =>
      obtain ⟨value, tail, rfl, _, htail⟩ := h
      rw [List.map_cons, List.map_cons, ih htail]

theorem keys_of_encodesFields {fields : List (String × LedgerValue)} {index : Nat}
    (h : EncodesFields index fields left) :
    left.map Prod.fst = (normalizeFields index fields).map Prod.fst := by
  induction fields generalizing index left with
  | nil =>
      obtain rfl := h
      rfl
  | cons field rest ih =>
      obtain ⟨value, tail, rfl, _, htail⟩ := h
      rw [normalizeFields, List.map_cons, List.map_cons, ih htail]

/-! ## Records -/

/-- The keys of fields without labels are their positions, in order. -/
theorem keys_of_unlabelled {fields : List (String × LedgerValue)} {index : Nat}
    (h : isUnlabelled fields = true) :
    (normalizeFields index fields).map Prod.fst = (List.range' index fields.length).map toString := by
  induction fields generalizing index with
  | nil => rfl
  | cons field rest ih =>
      rw [isUnlabelled, List.all_cons, Bool.and_eq_true] at h
      rw [normalizeFields, List.map_cons, ih h.2, List.length_cons, List.range'_succ, List.map_cons]
      dsimp only
      rw [getRecordFieldKey, if_pos h.1]

theorem keys_of_labelled {fields : List (String × LedgerValue)} {index : Nat} (h : isLabelled fields = true) :
    (normalizeFields index fields).map Prod.fst = fields.map Prod.fst := by
  induction fields generalizing index with
  | nil => rfl
  | cons field rest ih =>
      rw [isLabelled, List.all_cons, Bool.and_eq_true] at h
      rw [normalizeFields, List.map_cons, ih h.2, List.map_cons]
      simp only [Bool.and_eq_true, Bool.not_eq_true'] at h
      dsimp only
      rw [getRecordFieldKey, h.1.1.1]
      rfl

theorem named_of_labelled {fields : List (String × LedgerValue)} (h : isLabelled fields = true) :
    ∀ key ∈ fields.map Prod.fst, isPositionalKey key = false ∧ isMarkerKey key = false := by
  intro key hkey
  obtain ⟨field, hfield, rfl⟩ := List.mem_map.mp hkey
  rw [isLabelled, List.all_eq_true] at h
  have hlabel := h field hfield
  simp only [Bool.and_eq_true, Bool.not_eq_true'] at hlabel
  exact ⟨hlabel.1.2, hlabel.2⟩

theorem isMarkerKey_toString (index : Nat) : isMarkerKey (toString index) = false := by
  have hne : ∀ key, isPositionalKey key = false → toString index ≠ key := by
    intro key hkey heq
    rw [← heq, isPositionalKey_toString] at hkey
    cases hkey
  rw [isMarkerKey, decide_eq_false_iff_not, not_or, not_or]
  exact ⟨hne numericMarkerKey (by decide), hne partyMarkerKey (by decide), hne recordIdMarkerKey (by decide)⟩

section Fields

variable {fields : List (String × LedgerValue)} (h : EncodesFields 0 fields left)
include h

theorem unmarked_of_fields (hlabels : isLabelled fields = true ∨ isUnlabelled fields = true) :
    Unmarked left := by
  intro key hkey
  rw [keys_of_encodesFields h] at hkey
  rcases hlabels with hlabelled | hunlabelled
  · rw [keys_of_labelled hlabelled] at hkey
    exact (named_of_labelled hlabelled key hkey).2
  · rw [keys_of_unlabelled hunlabelled] at hkey
    obtain ⟨index, _, rfl⟩ := List.mem_map.mp hkey
    exact isMarkerKey_toString index

theorem named_of_fields (hlabelled : isLabelled fields = true) :
    ∀ key ∈ left.map Prod.fst, isPositionalKey key = false := by
  rw [keys_of_encodesFields h, keys_of_labelled hlabelled]
  intro key hkey
  exact (named_of_labelled hlabelled key hkey).1

theorem positional_of_fields (hunlabelled : isUnlabelled fields = true) :
    ∀ key ∈ left.map Prod.fst, isPositionalKey key = true := by
  rw [keys_of_encodesFields h, keys_of_unlabelled hunlabelled]
  intro key hkey
  obtain ⟨index, _, rfl⟩ := List.mem_map.mp hkey
  exact isPositionalKey_toString index

theorem ascending_of_fields (hunlabelled : isUnlabelled fields = true) :
    left.Pairwise fun first second => decimalValue first.1 < decimalValue second.1 := by
  have hkeys : (left.map Prod.fst).Pairwise fun first second => decimalValue first < decimalValue second := by
    rw [keys_of_encodesFields h, keys_of_unlabelled hunlabelled, List.pairwise_map]
    refine (List.pairwise_lt_range' (s := 0) (n := fields.length)).imp ?_
    intro first second hlt
    rwa [decimalValue_toString, decimalValue_toString]
  rwa [List.pairwise_map] at hkeys

end Fields

theorem places_of_fields {fields : List (String × LedgerValue)} {index : Nat}
    (h : EncodesFields index fields left) :
    left.map (fun property => isNullish property.2) = fields.map fun field => field.2.isNullish := by
  induction fields generalizing index left with
  | nil =>
      obtain rfl := h
      rfl
  | cons field rest ih =>
      obtain ⟨value, tail, rfl, hvalue, htail⟩ := h
      rw [List.map_cons, List.map_cons, ih htail, isNullish_of_encodes hvalue]

/-- The fields of equal records match one by one. -/
theorem fields_match {fields others : List (String × LedgerValue)} {marker marker' : List (String × HostValue)}
    (hleft : EncodesFields 0 fields left) (hright : EncodesFields 0 others right)
    (hmarker : IsTypeMarker marker) (hmarker' : IsTypeMarker marker')
    (hdistinct : (fieldKeys fields).Nodup) (hdistinct' : (fieldKeys others).Nodup)
    (hlength : fields.length = others.length) (haligned : fieldsAligned fields others = true)
    (h : valuesEqual (normalizeComparableValue (.object (ownOrder (left ++ marker))))
      (normalizeComparableValue (.object (ownOrder (right ++ marker')))) = true) :
    List.Forall₂ Matches (left.map Prod.snd) (right.map Prod.snd) := by
  have hnodup : (left.map Prod.fst).Nodup := by rwa [keys_of_encodesFields hleft]
  have hnodup' : (right.map Prod.fst).Nodup := by rwa [keys_of_encodesFields hright]
  simp only [fieldsAligned, hiddenAligned, Bool.or_eq_true, Bool.and_eq_true, decide_eq_true_eq] at haligned
  rcases haligned with (⟨hlabelled, hlabels⟩ | ⟨hunlabelled, hunlabelled'⟩) |
    ⟨⟨hunlabelled, hlabelled⟩ | ⟨hlabelled, hunlabelled⟩, hplaces⟩
  · -- both sides have the same labels
    have hlabelled' : isLabelled others = true := by
      rw [isLabelled, List.all_eq_true] at hlabelled ⊢
      intro field hfield
      have hlabel : field.1 ∈ fields.map Prod.fst := hlabels ▸ List.mem_map_of_mem hfield
      obtain ⟨field', hfield', heq⟩ := List.mem_map.mp hlabel
      rw [← heq]
      exact hlabelled field' hfield'
    have hkeys : left.map Prod.fst = right.map Prod.fst := by
      rw [keys_of_encodesFields hleft, keys_of_encodesFields hright, keys_of_labelled hlabelled,
        keys_of_labelled hlabelled', hlabels]
    exact forall₂_of_mem hkeys (matches_at_keys hmarker hmarker' hnodup
      (unmarked_of_fields hleft (Or.inl hlabelled)) hnodup' (unmarked_of_fields hright (Or.inl hlabelled')) h
      (sameShape_of_named (named_of_fields hleft hlabelled) (named_of_fields hright hlabelled'))).2
  · -- neither side has labels
    have hkeys : left.map Prod.fst = right.map Prod.fst := by
      rw [keys_of_encodesFields hleft, keys_of_encodesFields hright, keys_of_unlabelled hunlabelled,
        keys_of_unlabelled hunlabelled', hlength]
    exact forall₂_of_mem hkeys (matches_at_keys hmarker hmarker' hnodup
      (unmarked_of_fields hleft (Or.inr hunlabelled)) hnodup'
      (unmarked_of_fields hright (Or.inr hunlabelled')) h
      (sameShape_of_positional (positional_of_fields hleft hunlabelled)
        (positional_of_fields hright hunlabelled'))).2
  · exact matches_in_order hmarker hmarker' hnodup (unmarked_of_fields hleft (Or.inr hunlabelled)) hnodup'
      (unmarked_of_fields hright (Or.inl hlabelled)) h (positional_of_fields hleft hunlabelled)
      (ascending_of_fields hleft hunlabelled) (named_of_fields hright hlabelled)
      (by rw [places_of_fields hleft, places_of_fields hright, hplaces])
  · exact matches_in_order_right hmarker hmarker' hnodup (unmarked_of_fields hleft (Or.inl hlabelled)) hnodup'
      (unmarked_of_fields hright (Or.inr hunlabelled)) h (positional_of_fields hright hunlabelled)
      (ascending_of_fields hright hunlabelled) (named_of_fields hleft hlabelled)
      (by rw [places_of_fields hleft, places_of_fields hright, hplaces])

/-! ## Text maps -/

theorem unmarked_of_entries {entries : List (String × LedgerValue)} (h : EncodesEntries entries left)
    (hkeys : keysUnmarked entries = true) : Unmarked left := by
  intro key hkey
  rw [keys_of_encodesEntries h] at hkey
  obtain ⟨entry, hentry, rfl⟩ := List.mem_map.mp hkey
  rw [keysUnmarked, List.all_eq_true] at hkeys
  simpa using hkeys entry hentry

theorem keys_shown {entries : List (String × LedgerValue)} (h : EncodesEntries entries left)
    (hunmarked : Unmarked left) :
    (normalizeComparableProperties left).map Prod.fst = (shownEntries entries).map Prod.fst := by
  induction entries generalizing left with
  | nil =>
      obtain rfl := h
      rfl
  | cons entry rest ih =>
      obtain ⟨value, tail, rfl, hvalue, htail⟩ := h
      rw [Unmarked, List.map_cons, List.forall_mem_cons] at hunmarked
      have hkey := (ne_of_not_isMarkerKey hunmarked.1).2.2
      have hrest := ih htail hunmarked.2
      have hnull := isNullish_of_encodes hvalue
      rw [normalizeComparableProperties, shownEntries, List.filter_cons]
      cases hshown : entry.2.isNullish with
      | true =>
          rw [if_pos (Or.inr (hnull.trans hshown)), if_neg (by simp)]
          exact hrest
      | false =>
          rw [if_neg (by simp [hkey, hnull, hshown]), if_pos (by simp), List.map_cons, List.map_cons, hrest]
          rfl

/-- What is encoded under a key is encoded of an entry with that key. -/
theorem entry_of_mem {entries : List (String × LedgerValue)} {key : String} {value : HostValue}
    (h : EncodesEntries entries left) (hmem : (key, value) ∈ left) :
    ∃ entry, (key, entry) ∈ entries ∧ Encodes entry value := by
  induction entries generalizing left with
  | nil =>
      obtain rfl := h
      cases hmem
  | cons first rest ih =>
      obtain ⟨head, tail, rfl, hhead, htail⟩ := h
      rcases List.mem_cons.mp hmem with heq | hmem
      · obtain ⟨rfl, rfl⟩ := Prod.mk.inj heq
        exact ⟨first.2, List.mem_cons_self, hhead⟩
      · obtain ⟨entry, hentry, hencodes⟩ := ih htail hmem
        exact ⟨entry, List.mem_cons_of_mem _ hentry, hencodes⟩

theorem wellFormed_of_mem {entries : List (String × LedgerValue)} {entry : String × LedgerValue}
    (h : entriesWellFormed entries = true) (hmem : entry ∈ entries) : entry.2.isWellFormed = true := by
  induction entries with
  | nil => cases hmem
  | cons first rest ih =>
      rw [entriesWellFormed, Bool.and_eq_true] at h
      rcases List.mem_cons.mp hmem with rfl | hmem
      · exact h.1
      · exact ih h.2 hmem

/-- Equal text maps have the same keys, and match at each of them. -/
theorem entries_match {entries others : List (String × LedgerValue)}
    (hleft : EncodesEntries entries left) (hright : EncodesEntries others right)
    (hdistinct : (entries.map Prod.fst).Nodup) (hdistinct' : (others.map Prod.fst).Nodup)
    (hmarks : keysUnmarked entries = true) (hmarks' : keysUnmarked others = true)
    (hhidden : hiddenShared entries others = true) (hhidden' : hiddenShared others entries = true)
    (hshapes : shapesAgree entries others = true)
    (h : valuesEqual (normalizeComparableValue (.object (ownOrder left)))
      (normalizeComparableValue (.object (ownOrder right))) = true) :
    (∀ key, key ∈ entries.map Prod.fst ↔ key ∈ others.map Prod.fst) ∧
      ∀ key value other, (key, value) ∈ left → (key, other) ∈ right → Matches value other := by
  have hkeys := keys_of_encodesEntries hleft
  have hkeys' := keys_of_encodesEntries hright
  have hunmarked := unmarked_of_entries hleft hmarks
  have hunmarked' := unmarked_of_entries hright hmarks'
  have hshape : SameShape left right := by
    have hflag : ∀ {properties : List (String × HostValue)} {values : List (String × LedgerValue)},
        (normalizeComparableProperties properties).map Prod.fst = (shownEntries values).map Prod.fst →
        isPositional (normalizeComparableProperties properties) = keysPositional (shownEntries values) ∧
          (normalizeComparableProperties properties).length = (shownEntries values).length := by
      intro properties values hsame
      constructor
      · have hall := congrArg (List.all · isPositionalKey) hsame
        rw [List.all_map, List.all_map] at hall
        exact hall
      · simpa using congrArg List.length hsame
    have hshown := hflag (keys_shown hleft hunmarked)
    have hshown' := hflag (keys_shown hright hunmarked')
    unfold SameShape
    rw [hshown.1, hshown.2, hshown'.1, hshown'.2]
    simpa [shapesAgree] using hshapes
  rw [← List.append_nil left, ← List.append_nil right] at h
  have hmatches := matches_at_keys (Or.inl rfl) (Or.inl rfl) (hkeys ▸ hdistinct) hunmarked
    (hkeys' ▸ hdistinct') hunmarked' h hshape
  -- a key that is shown on one side is shown on the other, and one that is hidden is shared
  have hother : ∀ {first second : List (String × HostValue)} {values values' : List (String × LedgerValue)},
      EncodesEntries values first → EncodesEntries values' second → Unmarked first →
      hiddenShared values values' = true →
      (∀ key, key ≠ recordIdMarkerKey → (∃ value, (key, value) ∈ first ∧ isNullish value = false) →
        ∃ value, (key, value) ∈ second ∧ isNullish value = false) →
      ∀ key, key ∈ values.map Prod.fst → key ∈ values'.map Prod.fst := by
    intro first second values values' hfirst hsecond hplain hshared hshows key hkey
    rw [← keys_of_encodesEntries hfirst] at hkey
    have hname := (ne_of_not_isMarkerKey (hplain key hkey)).2.2
    obtain ⟨property, hproperty, rfl⟩ := List.mem_map.mp hkey
    obtain ⟨entry, hentry, hencodes⟩ := entry_of_mem hfirst hproperty
    cases hnull : entry.isNullish with
    | true =>
        rw [hiddenShared, List.all_eq_true] at hshared
        have hmem := hshared _ hentry
        rw [hnull] at hmem
        simpa using hmem
    | false =>
        have hshow : isNullish property.2 = false := (isNullish_of_encodes hencodes).trans hnull
        obtain ⟨value, hvalue, _⟩ := hshows property.1 hname ⟨property.2, hproperty, hshow⟩
        rw [← keys_of_encodesEntries hsecond]
        exact List.mem_map.mpr ⟨(property.1, value), hvalue, rfl⟩
  refine ⟨fun key => ⟨?_, ?_⟩, hmatches.2⟩
  · exact hother hleft hright hunmarked hhidden (fun key hkey => (hmatches.1 key hkey).mp) key
  · exact hother hright hleft hunmarked' hhidden' (fun key hkey => (hmatches.1 key hkey).mpr) key

/-! ## Equal values are the same -/

theorem eq_of_textsApart {text other : String} (happart : textsApart text other = true)
    (h : comparableText text = comparableText other) : text = other := by
  rw [textsApart, decide_eq_true_eq] at happart
  exact happart.resolve_right (not_not_intro h)

/-- Labels of fields, compared where both sides have them. -/
def LabelsAgree (fields others : List (String × LedgerValue)) : Prop :=
  List.Forall₂ (fun field other => field.1 = other.1 ∨ field.1.isEmpty = true ∨ other.1.isEmpty = true)
    fields others

theorem labelsAgree_of_aligned {fields others : List (String × LedgerValue)}
    (hlength : fields.length = others.length) (h : fieldsAligned fields others = true) :
    LabelsAgree fields others := by
  rw [LabelsAgree, List.forall₂_iff_get]
  refine ⟨hlength, fun index hindex hindex' => ?_⟩
  have hunlabelled : ∀ {values : List (String × LedgerValue)} (hvalue : index < values.length),
      isUnlabelled values = true → values[index].1.isEmpty = true := by
    intro values hvalue hall
    rw [isUnlabelled, List.all_eq_true] at hall
    exact hall _ (List.getElem_mem hvalue)
  simp only [fieldsAligned, Bool.or_eq_true, Bool.and_eq_true, decide_eq_true_eq] at h
  rcases h with (⟨_, hlabels⟩ | ⟨hleft, _⟩) | ⟨⟨hleft, _⟩ | ⟨_, hright⟩, _⟩
  · refine Or.inl ?_
    have hget := congrArg (fun labels => labels[index]?) hlabels
    simpa [List.getElem?_map, List.getElem?_eq_getElem hindex, List.getElem?_eq_getElem hindex'] using hget
  · exact Or.inr (Or.inl (hunlabelled hindex hleft))
  · exact Or.inr (Or.inl (hunlabelled hindex hleft))
  · exact Or.inr (Or.inr (hunlabelled hindex' hright))

/-- Pairs of a generic map that are compared. -/
theorem matches_of_entry {a b a' b' : HostValue}
    (h : valuesEqual (normalizeComparableValue (.object [("key", a), ("value", b)]))
      (normalizeComparableValue (.object [("key", a'), ("value", b')])) = true) :
    Matches a a' ∧ Matches b b' :=
  matches_of_pair (by decide) h

theorem matches_of_variant {a b a' b' : HostValue}
    (h : valuesEqual (normalizeComparableValue (.object [("constructor", a), ("value", b)]))
      (normalizeComparableValue (.object [("constructor", a'), ("value", b')])) = true) :
    Matches a a' ∧ Matches b b' :=
  matches_of_pair (by decide) h

theorem eq_of_string_matches {text other : String} (h : Matches (.string text) (.string other))
    (happart : textsApart text other = true) : text = other := by
  rcases h with ⟨hnull, _⟩ | hequal
  · cases hnull
  · exact eq_of_textsApart happart (of_decide_eq_true hequal)

theorem eq_of_contractId_matches {contractId other : String}
    (h : valuesEqual (normalizeComparableValue (.object [(contractIdMarkerKey, .string contractId)]))
      (normalizeComparableValue (.object [(contractIdMarkerKey, .string other)])) = true)
    (happart : textsApart contractId other = true) : contractId = other := by
  have hkeys : [(contractIdMarkerKey, HostValue.string contractId)].map Prod.fst
      = [(contractIdMarkerKey, HostValue.string other)].map Prod.fst := rfl
  have hname : ∀ key ∈ [contractIdMarkerKey], isMarkerKey key = false ∧ isPositionalKey key = false := by decide
  have hmatches := matches_of_sameNames hkeys (List.nodup_singleton _) (fun key hkey => (hname key hkey).1)
    (fun key hkey => (hname key hkey).2) h
  rw [List.map_singleton, List.map_singleton, List.forall₂_cons] at hmatches
  exact eq_of_string_matches hmatches.1 happart

theorem normalizeComparableValue_numeric {text : String} {h : HostValue} (hencodes : Encodes (.numeric text) h) :
    normalizeComparableValue h = .string (comparableText text) := by
  rcases hencodes with rfl | rfl <;> rfl

mutual

/-- Values that are encoded by matching untyped values are the same. -/
theorem sameValue_of_matches (value other : LedgerValue) (h h' : HostValue) (hvalue : Encodes value h)
    (hother : Encodes other h') (hformed : value.isWellFormed = true) (hformed' : other.isWellFormed = true)
    (hdiscerned : discerned value other = true) (hmatches : Matches h h') : SameValue value other := by
  rcases hmatches with ⟨hnull, hnull'⟩ | hequal
  · rw [isNullish_of_encodes hvalue] at hnull
    rw [isNullish_of_encodes hother] at hnull'
    exact sameValue_of_nullish hnull hnull' hdiscerned
  cases value with
  | unit => cases other <;> trivial
  | bool value =>
      cases other with
      | bool other =>
          obtain rfl := hvalue
          obtain rfl := hother
          have heq : value = other := of_decide_eq_true hequal
          exact heq
      | _ => cases hdiscerned
  | date value =>
      cases other with
      | date other =>
          obtain rfl := hvalue
          obtain rfl := hother
          have heq : value = other := of_decide_eq_true hequal
          exact heq
      | _ => cases hdiscerned
  | party value =>
      cases other with
      | party other =>
          obtain rfl := hvalue
          obtain rfl := hother
          have heq : value = other := of_decide_eq_true hequal
          exact heq
      | _ => cases hdiscerned
  | int64 value =>
      cases other with
      | int64 other =>
          obtain rfl := hvalue
          obtain rfl := hother
          exact eq_of_string_matches (Or.inr hequal) hdiscerned
      | _ => cases hdiscerned
  | timestamp value =>
      cases other with
      | timestamp other =>
          obtain rfl := hvalue
          obtain rfl := hother
          exact eq_of_string_matches (Or.inr hequal) hdiscerned
      | _ => cases hdiscerned
  | text value =>
      cases other with
      | text other =>
          obtain rfl := hvalue
          obtain rfl := hother
          exact eq_of_string_matches (Or.inr hequal) hdiscerned
      | _ => cases hdiscerned
  | enum value =>
      cases other with
      | enum other =>
          obtain rfl := hvalue
          obtain rfl := hother
          exact eq_of_string_matches (Or.inr hequal) hdiscerned
      | _ => cases hdiscerned
  | contractId value =>
      cases other with
      | contractId other =>
          obtain rfl := hvalue
          obtain rfl := hother
          exact eq_of_contractId_matches hequal hdiscerned
      | _ => cases hdiscerned
  | numeric value =>
      cases other with
      | numeric other =>
          rw [normalizeComparableValue_numeric hvalue, normalizeComparableValue_numeric hother, valuesEqual,
            decide_eq_true_eq] at hequal
          change numericValue value = numericValue other
          rw [← numericValue_comparableText, hequal, numericValue_comparableText]
      | _ => cases hdiscerned
  | optional value =>
      cases other with
      | optional other =>
          have hnullish := isNullish_of_valuesEqual hequal
          rw [isNullish_normalizeComparableValue, isNullish_normalizeComparableValue,
            isNullish_of_encodes hvalue, isNullish_of_encodes hother] at hnullish
          cases value with
          | none =>
              cases other with
              | none => trivial
              | some other =>
                  rw [LedgerValue.isNullish, LedgerValue.isNullish] at hnullish
                  rw [discerned, ← hnullish] at hdiscerned
                  cases hdiscerned
          | some value =>
              cases other with
              | none =>
                  rw [LedgerValue.isNullish, LedgerValue.isNullish] at hnullish
                  rw [discerned, hnullish] at hdiscerned
                  cases hdiscerned
              | some other =>
                  exact sameValue_of_matches value other h h' hvalue hother hformed hformed' hdiscerned
                    (Or.inr hequal)
      | _ => cases value <;> cases hdiscerned
  | list elements =>
      cases other with
      | list others =>
          obtain ⟨items, rfl, hitems⟩ := hvalue
          obtain ⟨items', rfl, hitems'⟩ := hother
          rw [normalizeComparableValue, normalizeComparableValue, valuesEqual, Bool.and_eq_true,
            decide_eq_true_eq, normalizeComparableItems_eq, normalizeComparableItems_eq] at hequal
          have hequals := forall₂_of_itemsEqual hequal.1 hequal.2
          rw [List.forall₂_map_left_iff, List.forall₂_map_right_iff] at hequals
          exact sameItems_of_matches elements others items items' hitems hitems' hformed hformed' hdiscerned
            (hequals.imp fun _ _ => Or.inr)
      | _ => cases hdiscerned
  | genMap entries =>
      cases other with
      | genMap others =>
          obtain ⟨items, rfl, hitems⟩ := hvalue
          obtain ⟨items', rfl, hitems'⟩ := hother
          rw [normalizeComparableValue, normalizeComparableValue, valuesEqual, Bool.and_eq_true,
            decide_eq_true_eq, normalizeComparableItems_eq, normalizeComparableItems_eq] at hequal
          have hequals := forall₂_of_itemsEqual hequal.1 hequal.2
          rw [List.forall₂_map_left_iff, List.forall₂_map_right_iff] at hequals
          exact samePairs_of_matches entries others items items' hitems hitems' hformed hformed' hdiscerned
            hequals
      | _ => cases hdiscerned
  | textMap entries =>
      cases other with
      | textMap others =>
          obtain ⟨properties, rfl, hentries⟩ := hvalue
          obtain ⟨properties', rfl, hothers⟩ := hother
          rw [LedgerValue.isWellFormed, Bool.and_eq_true, decide_eq_true_eq] at hformed hformed'
          simp only [discerned, Bool.and_eq_true] at hdiscerned
          obtain ⟨⟨⟨⟨⟨hmarks, hmarks'⟩, hhidden⟩, hhidden'⟩, hshapes⟩, hentriesDiscerned⟩ := hdiscerned
          obtain ⟨hkeys, hmatch⟩ := entries_match hentries hothers hformed.1 hformed'.1 hmarks hmarks' hhidden
            hhidden' hshapes hequal
          refine ⟨?_, sameEntries_of_matches entries others properties properties' hentries hothers hformed.2
            hformed'.2 hentriesDiscerned (fun key hkey => (hkeys key).mp hkey) hmatch⟩
          have hperm := (List.perm_ext_iff_of_nodup hformed.1 hformed'.1).mpr hkeys
          simpa using hperm.length_eq
      | _ => cases hdiscerned
  | record recordId fields =>
      cases other with
      | record recordId' others =>
          obtain ⟨properties, marker, rfl, hmarker, hfields⟩ := hvalue
          obtain ⟨properties', marker', rfl, hmarker', hothers⟩ := hother
          rw [LedgerValue.isWellFormed, Bool.and_eq_true, decide_eq_true_eq] at hformed hformed'
          simp only [discerned, Bool.and_eq_true, decide_eq_true_eq] at hdiscerned
          obtain ⟨⟨hlength, haligned⟩, hfieldsDiscerned⟩ := hdiscerned
          have hmatch := fields_match hfields hothers hmarker hmarker' hformed.1 hformed'.1 hlength haligned hequal
          exact sameFields_of_matches fields others 0 0 properties properties' hfields hothers hformed.2
            hformed'.2 hfieldsDiscerned (labelsAgree_of_aligned hlength haligned) hmatch
      | _ => cases hdiscerned
  | variant constructor_ value =>
      cases other with
      | variant constructor_' other =>
          obtain ⟨payload, rfl, hpayload⟩ := hvalue
          obtain ⟨payload', rfl, hpayload'⟩ := hother
          simp only [discerned, Bool.and_eq_true, Bool.or_eq_true, decide_eq_true_eq] at hdiscerned
          obtain ⟨hnames, hvalues⟩ := matches_of_variant hequal
          have heq := eq_of_string_matches hnames hdiscerned.1
          exact ⟨heq, sameValue_of_matches value other payload payload' hpayload hpayload' hformed hformed'
            (hdiscerned.2.resolve_left (not_not_intro heq)) hvalues⟩
      | _ => cases hdiscerned
termination_by structural value

theorem sameItems_of_matches (elements others : List LedgerValue) (items items' : List HostValue)
    (hitems : EncodesItems elements items) (hitems' : EncodesItems others items')
    (hformed : elementsWellFormed elements = true) (hformed' : elementsWellFormed others = true)
    (hdiscerned : discernedItems elements others = true) (hmatches : List.Forall₂ Matches items items') :
    SameItems elements others := by
  cases elements with
  | nil =>
      obtain rfl := hitems
      obtain rfl := List.forall₂_nil_left_iff.mp hmatches
      cases others with
      | nil => trivial
      | cons other others =>
          obtain ⟨_, _, hcons, _⟩ := hitems'
          cases hcons
  | cons element elements =>
      obtain ⟨h, tail, rfl, hhead, htail⟩ := hitems
      cases others with
      | nil =>
          obtain rfl := hitems'
          cases hmatches
      | cons other others =>
          obtain ⟨h', tail', rfl, hhead', htail'⟩ := hitems'
          rw [List.forall₂_cons] at hmatches
          rw [elementsWellFormed, Bool.and_eq_true] at hformed hformed'
          rw [discernedItems, Bool.and_eq_true] at hdiscerned
          exact ⟨sameValue_of_matches element other h h' hhead hhead' hformed.1 hformed'.1 hdiscerned.1 hmatches.1,
            sameItems_of_matches elements others tail tail' htail htail' hformed.2 hformed'.2 hdiscerned.2
              hmatches.2⟩
termination_by structural elements

theorem sameEntries_of_matches (entries others : List (String × LedgerValue))
    (properties properties' : List (String × HostValue)) (hentries : EncodesEntries entries properties)
    (hothers : EncodesEntries others properties') (hformed : entriesWellFormed entries = true)
    (hformed' : entriesWellFormed others = true) (hdiscerned : discernedEntries entries others = true)
    (hkeys : ∀ key ∈ entries.map Prod.fst, key ∈ others.map Prod.fst)
    (hmatches : ∀ key value other, (key, value) ∈ properties → (key, other) ∈ properties' → Matches value other) :
    SameEntries entries others := by
  cases entries with
  | nil => trivial
  | cons entry entries =>
      obtain ⟨key, value⟩ := entry
      obtain ⟨h, tail, rfl, hhead, htail⟩ := hentries
      rw [List.map_cons, List.forall_mem_cons] at hkeys
      rw [entriesWellFormed, Bool.and_eq_true] at hformed
      rw [discernedEntries, Bool.and_eq_true, List.all_eq_true] at hdiscerned
      have hshown : key ∈ properties'.map Prod.fst := by
        rw [keys_of_encodesEntries hothers]
        exact hkeys.1
      obtain ⟨⟨_, h'⟩, hproperty, rfl⟩ := List.mem_map.mp hshown
      obtain ⟨other, hother, hencodes⟩ := entry_of_mem hothers hproperty
      have hentryDiscerned := hdiscerned.1 _ hother
      simp only [Bool.or_eq_true, decide_eq_true_eq, ne_eq, not_true_eq_false, false_or] at hentryDiscerned
      refine ⟨⟨other, hother, ?_⟩, ?_⟩
      · exact sameValue_of_matches value other h h' hhead hencodes hformed.1
          (wellFormed_of_mem hformed' hother) hentryDiscerned (hmatches _ _ _ List.mem_cons_self hproperty)
      · exact sameEntries_of_matches entries others tail properties' htail hothers hformed.2 hformed'
          hdiscerned.2 hkeys.2 fun key value other hvalue => hmatches key value other (List.mem_cons_of_mem _ hvalue)
termination_by structural entries

theorem samePairs_of_matches (pairs others : List (LedgerValue × LedgerValue)) (items items' : List HostValue)
    (hitems : EncodesPairs pairs items) (hitems' : EncodesPairs others items')
    (hformed : pairsWellFormed pairs = true) (hformed' : pairsWellFormed others = true)
    (hdiscerned : discernedPairs pairs others = true)
    (hequals : List.Forall₂ (fun item other =>
      valuesEqual (normalizeComparableValue item) (normalizeComparableValue other) = true) items items') :
    SamePairs pairs others := by
  cases pairs with
  | nil =>
      obtain rfl := hitems
      obtain rfl := List.forall₂_nil_left_iff.mp hequals
      cases others with
      | nil => trivial
      | cons other others =>
          obtain ⟨_, _, _, hcons, _⟩ := hitems'
          cases hcons
  | cons pair pairs =>
      obtain ⟨key, value⟩ := pair
      obtain ⟨k, h, tail, rfl, hkey, hvalue, htail⟩ := hitems
      cases others with
      | nil =>
          obtain rfl := hitems'
          cases hequals
      | cons other others =>
          obtain ⟨key', value'⟩ := other
          obtain ⟨k', h', tail', rfl, hkey', hvalue', htail'⟩ := hitems'
          rw [List.forall₂_cons] at hequals
          rw [pairsWellFormed, Bool.and_eq_true, Bool.and_eq_true] at hformed hformed'
          rw [discernedPairs, Bool.and_eq_true, Bool.and_eq_true] at hdiscerned
          obtain ⟨hkeys, hvalues⟩ := matches_of_entry hequals.1
          exact ⟨sameValue_of_matches key key' k k' hkey hkey' hformed.1.1 hformed'.1.1 hdiscerned.1.1 hkeys,
            sameValue_of_matches value value' h h' hvalue hvalue' hformed.1.2 hformed'.1.2 hdiscerned.1.2 hvalues,
            samePairs_of_matches pairs others tail tail' htail htail' hformed.2 hformed'.2 hdiscerned.2
              hequals.2⟩
termination_by structural pairs

theorem sameFields_of_matches (fields others : List (String × LedgerValue)) (index index' : Nat)
    (properties properties' : List (String × HostValue)) (hfields : EncodesFields index fields properties)
    (hothers : EncodesFields index' others properties') (hformed : entriesWellFormed fields = true)
    (hformed' : entriesWellFormed others = true) (hdiscerned : discernedFields fields others = true)
    (hlabels : LabelsAgree fields others)
    (hmatches : List.Forall₂ Matches (properties.map Prod.snd) (properties'.map Prod.snd)) :
    SameFields fields others := by
  cases fields with
  | nil =>
      obtain rfl := List.forall₂_nil_left_iff.mp hlabels
      trivial
  | cons field fields =>
      cases others with
      | nil => cases hlabels
      | cons other others =>
          obtain ⟨label, value⟩ := field
          obtain ⟨label', value'⟩ := other
          obtain ⟨h, tail, rfl, hhead, htail⟩ := hfields
          obtain ⟨h', tail', rfl, hhead', htail'⟩ := hothers
          rw [List.map_cons, List.map_cons, List.forall₂_cons] at hmatches
          rw [LabelsAgree, List.forall₂_cons] at hlabels
          rw [entriesWellFormed, Bool.and_eq_true] at hformed hformed'
          rw [discernedFields, Bool.and_eq_true] at hdiscerned
          exact ⟨hlabels.1,
            sameValue_of_matches value value' h h' hhead hhead' hformed.1 hformed'.1 hdiscerned.1 hmatches.1,
            sameFields_of_matches fields others (index + 1) (index' + 1) tail tail' htail htail' hformed.2
              hformed'.2 hdiscerned.2 hlabels.2 hmatches.2⟩
termination_by structural fields

end

end CantonSdk.Debugger
