import CantonSdk.Base.Related
import CantonSdk.Commands.LedgerJson

/-!
# Weights

How many scalars there are in a meaning, in JSON and in a Ledger API value. A value and its meaning weigh the
same, JSON weighs no more than what it is read as, and what is submitted as JSON weighs at least as much as
what is submitted as a Ledger API value.
-/

set_option linter.all false

namespace CantonSdk.Commands

open CantonSdk.Base CantonSdk.DamlValues

/-! ## Meanings -/

mutual

def weight : Meaning → Nat
  | .unit | .absent => 0
  | .present value => weight value
  | .list elements => meaningsWeight elements
  | .textMap entries => entriesWeight entries
  | .genMap entries => pairsWeight entries
  | .record fields => meaningsWeight fields
  | .variant _ value => 1 + weight value
  | _ => 1

def meaningsWeight : List Meaning → Nat
  | [] => 0
  | meaning :: rest => weight meaning + meaningsWeight rest

def entriesWeight : List (String × Meaning) → Nat
  | [] => 0
  | (_, meaning) :: rest => weight meaning + entriesWeight rest

def pairsWeight : List (Meaning × Meaning) → Nat
  | [] => 0
  | (key, meaning) :: rest => (weight key + weight meaning) + pairsWeight rest

end

theorem meaningsWeight_eq (meanings : List Meaning) : meaningsWeight meanings = (meanings.map weight).sum := by
  induction meanings with
  | nil => rfl
  | cons meaning rest ih => rw [meaningsWeight, ih, List.map_cons, List.sum_cons]

theorem entriesWeight_eq (entries : List (String × Meaning)) :
    entriesWeight entries = (entries.map fun entry => weight entry.2).sum := by
  induction entries with
  | nil => rfl
  | cons entry rest ih => rw [entriesWeight, ih, List.map_cons, List.sum_cons]

theorem pairsWeight_eq (entries : List (Meaning × Meaning)) :
    pairsWeight entries = (entries.map fun entry => weight entry.1 + weight entry.2).sum := by
  induction entries with
  | nil => rfl
  | cons entry rest ih => rw [pairsWeight, ih, List.map_cons, List.sum_cons]

/-! ## Values -/

mutual

def valueWeight : Query.Grpc.Value → Nat
  | .unit | .unset => 0
  | .optional value => partWeight value
  | .list elements => elementsWeight elements
  | .textMap entries => partsWeight entries
  | .genMap entries => partPairsWeight entries
  | .record fields => partsWeight fields
  | .variant _ value => 1 + partWeight value
  | _ => 1

def partWeight : Option Query.Grpc.Value → Nat
  | none => 0
  | some value => valueWeight value

def elementsWeight : List Query.Grpc.Value → Nat
  | [] => 0
  | value :: rest => valueWeight value + elementsWeight rest

def partsWeight : List (String × Option Query.Grpc.Value) → Nat
  | [] => 0
  | (_, part) :: rest => partWeight part + partsWeight rest

def partPairsWeight : List (Option Query.Grpc.Value × Option Query.Grpc.Value) → Nat
  | [] => 0
  | (key, part) :: rest => (partWeight key + partWeight part) + partPairsWeight rest

end

theorem elementsWeight_eq (elements : List Query.Grpc.Value) :
    elementsWeight elements = (elements.map valueWeight).sum := by
  induction elements with
  | nil => rfl
  | cons element rest ih => rw [elementsWeight, ih, List.map_cons, List.sum_cons]

theorem partsWeight_eq (fields : List (String × Option Query.Grpc.Value)) :
    partsWeight fields = ((fields.map Prod.snd).map partWeight).sum := by
  induction fields with
  | nil => rfl
  | cons field rest ih => rw [partsWeight, ih, List.map_cons, List.map_cons, List.sum_cons]

theorem partPairsWeight_eq (entries : List (Option Query.Grpc.Value × Option Query.Grpc.Value)) :
    partPairsWeight entries = (entries.map fun entry => partWeight entry.1 + partWeight entry.2).sum := by
  induction entries with
  | nil => rfl
  | cons entry rest ih => rw [partPairsWeight, ih, List.map_cons, List.sum_cons]

/-- Sums over corresponding lists are equal when corresponding terms are. -/
theorem sum_eq_of_forall₂ {α β : Type} {R : α → β → Prop} {f : α → Nat} {g : β → Nat} {left : List α} {right : List β}
    (h : List.Forall₂ R left right) (hstep : ∀ a b, R a b → f a = g b) :
    (left.map f).sum = (right.map g).sum := by
  induction h with
  | nil => rfl
  | cons hfirst _ ih => rw [List.map_cons, List.map_cons, List.sum_cons, List.sum_cons, hstep _ _ hfirst, ih]

theorem sum_le_of_forall₂ {α β : Type} {R : α → β → Prop} {f : α → Nat} {g : β → Nat} {left : List α} {right : List β}
    (h : List.Forall₂ R left right) (hstep : ∀ a b, R a b → f a ≤ g b) :
    (left.map f).sum ≤ (right.map g).sum := by
  induction h with
  | nil => exact Nat.le_refl _
  | cons hfirst _ ih =>
      rw [List.map_cons, List.map_cons, List.sum_cons, List.sum_cons]
      exact Nat.add_le_add (hstep _ _ hfirst) ih

/-- The parts of a record are the values of its fields, in some order. -/
theorem perm_of_sourceFields {fields : List (String × Option Query.Grpc.Value)}
    {descriptorFields : List (RecordField DamlTypeDescriptor)} {values : List (Option Query.Grpc.Value)}
    (h : sourceFields fields descriptorFields = some values) :
    values.Perm (fields.map Prod.snd) ∧ values.length = descriptorFields.length := by
  rw [sourceFields] at h
  split at h
  · rw [Option.ite_none_right_eq_some, Option.some.injEq] at h
    obtain ⟨⟨hnodup, hperm⟩, rfl⟩ := h
    refine ⟨?_, List.length_map ..⟩
    have hfind := (hperm.map fun label => ((fields.find? fun field => decide (field.1 = label)).map Prod.snd).join).symm
    rw [List.map_map, List.map_map] at hfind
    have hself : (fields.map Prod.snd)
        = fields.map ((fun label => ((fields.find? fun field => decide (field.1 = label)).map Prod.snd).join) ∘ Prod.fst) := by
      apply List.map_congr_left
      intro field hfield
      rw [Function.comp_apply, (KeyedMap.find_eq_some hnodup).mpr hfield]
      rfl
    rw [hself]
    exact hfind
  · rw [Option.ite_none_right_eq_some, Option.some.injEq] at h
    obtain ⟨⟨_, hlength⟩, rfl⟩ := h
    exact ⟨.refl _, by rw [List.length_map, hlength]⟩

section Denotation

variable (denote : Query.Grpc.Value → DamlTypeDescriptor → Option Meaning)
  (h : ∀ {value : Query.Grpc.Value} {descriptor : DamlTypeDescriptor} {meaning : Meaning},
    denote value descriptor = some meaning → weight meaning = valueWeight value)

include h

theorem weight_part {part : Option Query.Grpc.Value} {descriptor : DamlTypeDescriptor} {meaning : Meaning}
    (hmeaning : part.bind (denote · descriptor) = some meaning) : partWeight part = weight meaning := by
  obtain ⟨value, rfl, hvalue⟩ := Option.bind_eq_some_iff.mp hmeaning
  exact (h hvalue).symm

theorem weight_denoteValue {value : Query.Grpc.Value} {descriptor : DamlTypeDescriptor} {meaning : Meaning}
    (hmeaning : denoteValue denote value descriptor = some meaning) : weight meaning = valueWeight value := by
  unfold denoteValue at hmeaning
  split at hmeaning
  case h_1 | h_2 | h_8 | h_10 =>
    cases hmeaning
    rfl
  case h_3 | h_5 =>
    obtain ⟨_, _, rfl⟩ := Option.map_eq_some_iff.mp hmeaning
    rfl
  case h_4 =>
    rw [dateMeaning, Option.ite_none_right_eq_some] at hmeaning
    cases hmeaning.2
    rfl
  case h_6 =>
    rw [numericMeaning] at hmeaning
    split at hmeaning
    · cases hmeaning
    · rw [Option.ite_none_right_eq_some] at hmeaning
      cases hmeaning.2
      rfl
  case h_7 =>
    rw [partyMeaning, Option.ite_none_left_eq_some] at hmeaning
    cases hmeaning.2
    rfl
  case h_9 =>
    rw [contractIdMeaning, Option.ite_none_left_eq_some] at hmeaning
    cases hmeaning.2
    rfl
  case h_11 =>
    obtain ⟨inner, hinner, rfl⟩ := Option.map_eq_some_iff.mp hmeaning
    rw [weight, valueWeight, partWeight]
    exact h hinner
  case h_12 =>
    obtain ⟨meanings, hmeanings, rfl⟩ := Option.map_eq_some_iff.mp hmeaning
    rw [weight, valueWeight, meaningsWeight_eq, elementsWeight_eq]
    exact (sum_eq_of_forall₂ (readAll_eq_some.mp hmeanings) fun _ _ hentry => (h hentry).symm).symm
  case h_13 =>
    rw [Option.ite_none_right_eq_some] at hmeaning
    obtain ⟨meanings, hmeanings, rfl⟩ := Option.map_eq_some_iff.mp hmeaning.2
    rw [weight, valueWeight, entriesWeight_eq, partsWeight_eq, List.map_map]
    refine (sum_eq_of_forall₂ (readAll_eq_some.mp hmeanings) ?_).symm
    intro entry meaning hentry
    obtain ⟨inner, hinner, rfl⟩ := Option.map_eq_some_iff.mp hentry
    exact weight_part denote h hinner
  case h_14 =>
    obtain ⟨meanings, hmeanings, rfl⟩ := Option.map_eq_some_iff.mp hmeaning
    rw [weight, valueWeight, pairsWeight_eq, partPairsWeight_eq]
    refine (sum_eq_of_forall₂ (readAll_eq_some.mp hmeanings) ?_).symm
    intro entry meaning hentry
    obtain ⟨keyMeaning, hkey, hrest⟩ := Option.bind_eq_some_iff.mp hentry
    obtain ⟨inner, hinner, rfl⟩ := Option.map_eq_some_iff.mp hrest
    have hkeyWeight : partWeight entry.1 = weight keyMeaning := weight_part denote h hkey
    have hinnerWeight : partWeight entry.2 = weight inner := weight_part denote h hinner
    rw [hkeyWeight, hinnerWeight]
  case h_15 fields descriptorFields =>
    obtain ⟨values, hvalues, hmeaning⟩ := Option.bind_eq_some_iff.mp hmeaning
    obtain ⟨meanings, hmeanings, rfl⟩ := Option.map_eq_some_iff.mp hmeaning
    obtain ⟨hperm, hlength⟩ := perm_of_sourceFields hvalues
    have hparts : (descriptorFields.zip values).map Prod.snd = values := List.map_snd_zip hlength.le
    rw [weight, valueWeight, meaningsWeight_eq, partsWeight_eq, ← (hperm.map partWeight).sum_nat]
    conv_rhs => rw [← hparts, List.map_map]
    exact (sum_eq_of_forall₂ (readAll_eq_some.mp hmeanings) fun _ _ hfield => weight_part denote h hfield).symm
  case h_16 =>
    obtain ⟨found, _, hmeaning⟩ := Option.bind_eq_some_iff.mp hmeaning
    obtain ⟨inner, hinner, rfl⟩ := Option.map_eq_some_iff.mp hmeaning
    have hinnerWeight : partWeight _ = weight inner := weight_part denote h hinner
    rw [weight, valueWeight, hinnerWeight]
  case h_17 =>
    rw [Option.ite_none_right_eq_some] at hmeaning
    cases hmeaning.2
    rfl
  case h_18 => cases hmeaning

end Denotation

theorem weight_denote {registry : Registry} {fuel : Nat} {value : Query.Grpc.Value} {descriptor : DamlTypeDescriptor}
    {meaning : Meaning} (h : denote registry fuel value descriptor = some meaning) :
    weight meaning = valueWeight value := by
  induction fuel generalizing value descriptor meaning with
  | zero => cases h
  | succ fuel ih =>
      cases descriptor with
      | namedReference identity typeArguments =>
          obtain ⟨resolved, _, hvalue⟩ := Option.bind_eq_some_iff.mp h
          exact ih hvalue
      | _ => exact weight_denoteValue _ ih h

/-! ## JSON -/

mutual

def jsonWeight : DamlValue → Nat
  | .bool _ | .integer _ | .fraction _ | .bigint _ | .string _ => 1
  | .array items => itemsWeight items
  | .object properties => propertiesWeight properties
  | _ => 0

def itemsWeight : List DamlValue → Nat
  | [] => 0
  | item :: rest => jsonWeight item + itemsWeight rest

def propertiesWeight : List (String × DamlValue) → Nat
  | [] => 0
  | (_, item) :: rest => jsonWeight item + propertiesWeight rest

end

theorem itemsWeight_eq (items : List DamlValue) : itemsWeight items = (items.map jsonWeight).sum := by
  induction items with
  | nil => rfl
  | cons item rest ih => rw [itemsWeight, ih, List.map_cons, List.sum_cons]

theorem propertiesWeight_eq (properties : List (String × DamlValue)) :
    propertiesWeight properties = (properties.map fun property => jsonWeight property.2).sum := by
  induction properties with
  | nil => rfl
  | cons property rest ih => rw [propertiesWeight, ih, List.map_cons, List.sum_cons]

/-- What is not printed has no weight. -/
theorem propertiesWeight_printed (properties : List (String × DamlValue)) :
    propertiesWeight (printedProperties properties) = propertiesWeight properties := by
  induction properties with
  | nil => rfl
  | cons property rest ih =>
      obtain ⟨key, item⟩ := property
      rw [printedProperties, List.filter_cons, ← printedProperties]
      cases item with
      | undefined => exact ih.trans (Nat.zero_add _).symm
      | _ => exact congrArg (_ + ·) ih

/-- Where every key of a list is a label, looking all labels up finds at least the whole list. -/
theorem sum_le_sum_find {α : Type} {properties : List (String × α)} (f : String × α → Nat)
    (hnodup : (properties.map Prod.fst).Nodup) {labels : List String}
    (hlabels : ∀ property ∈ properties, property.1 ∈ labels) :
    (properties.map f).sum
      ≤ (labels.map fun label => ((properties.find? fun property => decide (property.1 = label)).map f).getD 0).sum := by
  have hsubset : properties.map Prod.fst ⊆ labels := by
    intro label hlabel
    obtain ⟨property, hproperty, rfl⟩ := List.mem_map.mp hlabel
    exact hlabels property hproperty
  obtain ⟨found, hperm, hsublist⟩ := List.subperm_of_subset hnodup hsubset
  obtain ⟨others, hothers⟩ := hsublist.exists_perm_append
  rw [((hothers.trans (hperm.append_right _)).map _).sum_nat, List.map_append, List.sum_append, List.map_map]
  have hself : properties.map f = properties.map
      ((fun label => ((properties.find? fun property => decide (property.1 = label)).map f).getD 0) ∘ Prod.fst) := by
    apply List.map_congr_left
    intro property hproperty
    rw [Function.comp_apply, (KeyedMap.find_eq_some hnodup).mpr hproperty]
    rfl
  rw [← hself]
  exact Nat.le_add_right _ _

section Reading

variable {read : DamlValue → DamlTypeDescriptor → Option Meaning}
  (h : ∀ {json : DamlValue} {descriptor : DamlTypeDescriptor} {meaning : Meaning},
    read json descriptor = some meaning → jsonWeight json ≤ weight meaning)

include h

theorem weight_readPair {key element : DamlTypeDescriptor} {entry : DamlValue} {meaning : Meaning × Meaning}
    (hread : readPair read key element entry = some meaning) :
    jsonWeight entry ≤ weight meaning.1 + weight meaning.2 := by
  unfold readPair at hread
  split at hread
  · obtain ⟨keyMeaning, hkey, hrest⟩ := Option.bind_eq_some_iff.mp hread
    obtain ⟨inner, hinner, rfl⟩ := Option.map_eq_some_iff.mp hrest
    have hkeyWeight := h hkey
    have hinnerWeight := h hinner
    rw [jsonWeight, itemsWeight, itemsWeight, itemsWeight]
    dsimp only
    omega
  · cases hread

theorem weight_readField {properties : List (String × DamlValue)} {field : RecordField DamlTypeDescriptor}
    {meaning : Meaning} (hread : readField read properties field = some meaning) :
    ((properties.find? fun property => decide (property.1 = field.damlLabel)).map
      fun property => jsonWeight property.2).getD 0 ≤ weight meaning := by
  unfold readField at hread
  split at hread
  · rename_i property hfind
    rw [hfind]
    exact h hread
  · rename_i hfind
    rw [hfind]
    exact Nat.zero_le _

theorem weight_readOptional {json : DamlValue} {element : DamlTypeDescriptor} {meaning : Meaning}
    (hread : readOptional read json element = some meaning) : jsonWeight json ≤ weight meaning := by
  unfold readOptional at hread
  split at hread
  · cases hread
    exact Nat.le_refl _
  · cases hread
    exact Nat.le_refl _
  · obtain ⟨inner, hinner, rfl⟩ := Option.map_eq_some_iff.mp hread
    rw [jsonWeight, itemsWeight, itemsWeight, weight]
    exact h hinner
  · cases hread
  · obtain ⟨inner, hinner, rfl⟩ := Option.map_eq_some_iff.mp hread
    rw [weight]
    exact h hinner

theorem weight_readVariant {properties : List (String × DamlValue)}
    {constructors : List (VariantConstructor DamlTypeDescriptor)} {meaning : Meaning}
    (hread : readVariant read properties constructors = some meaning) :
    propertiesWeight properties ≤ weight meaning := by
  unfold readVariant at hread
  split at hread
  · rename_i hnames
    split at hread
    · rename_i tag value htag hvalue
      obtain ⟨found, _, hmeaning⟩ := Option.bind_eq_some_iff.mp hread
      obtain ⟨inner, hinner, rfl⟩ := Option.map_eq_some_iff.mp hmeaning
      have hnodup : (properties.map Prod.fst).Nodup := hnames.nodup_iff.mpr (by decide)
      have hsum := sum_le_sum_find (fun property => jsonWeight property.2) hnodup
        fun property hproperty => hnames.mem_iff.mp (List.mem_map_of_mem hproperty)
      have hinnerWeight := h hinner
      rw [List.map_cons, List.map_cons, List.map_nil, htag, hvalue] at hsum
      rw [propertiesWeight_eq, weight]
      simp only [Option.map_some, Option.getD_some, List.sum_cons, List.sum_nil] at hsum
      rw [jsonWeight] at hsum
      omega
    · cases hread
  · cases hread

theorem weight_readJsonValue {json : DamlValue} {descriptor : DamlTypeDescriptor} {meaning : Meaning}
    (hread : readJsonValue read json descriptor = some meaning) : jsonWeight json ≤ weight meaning := by
  unfold readJsonValue at hread
  split at hread
  case h_1 =>
    split at hread
    · rename_i hempty
      rw [jsonWeight, ← propertiesWeight_printed, List.isEmpty_iff.mp hempty]
      exact Nat.zero_le _
    · cases hread
  case h_2 | h_11 =>
    cases hread
    exact Nat.le_refl _
  case h_3 =>
    rw [int64InRange, Option.ite_none_right_eq_some] at hread
    cases hread.2
    exact Nat.le_refl _
  case h_4 | h_5 | h_6 =>
    obtain ⟨_, _, rfl⟩ := Option.map_eq_some_iff.mp hread
    exact Nat.le_refl _
  case h_7 | h_8 | h_9 =>
    rw [numericMeaning] at hread
    split at hread
    · cases hread
    · rw [Option.ite_none_right_eq_some] at hread
      cases hread.2
      exact Nat.le_refl _
  case h_10 =>
    rw [partyMeaning, Option.ite_none_left_eq_some] at hread
    cases hread.2
    exact Nat.le_refl _
  case h_12 =>
    rw [contractIdMeaning, Option.ite_none_left_eq_some] at hread
    cases hread.2
    exact Nat.le_refl _
  case h_13 => exact weight_readOptional h hread
  case h_14 =>
    obtain ⟨meanings, hmeanings, rfl⟩ := Option.map_eq_some_iff.mp hread
    rw [jsonWeight, weight, itemsWeight_eq, meaningsWeight_eq]
    exact sum_le_of_forall₂ (readAll_eq_some.mp hmeanings) fun _ _ hentry => h hentry
  case h_15 =>
    rw [Option.ite_none_right_eq_some] at hread
    obtain ⟨meanings, hmeanings, rfl⟩ := Option.map_eq_some_iff.mp hread.2
    rw [jsonWeight, weight, ← propertiesWeight_printed, propertiesWeight_eq, entriesWeight_eq]
    refine sum_le_of_forall₂ (readAll_eq_some.mp hmeanings) ?_
    intro entry meaning hentry
    obtain ⟨inner, hinner, rfl⟩ := Option.map_eq_some_iff.mp hentry
    exact h hinner
  case h_16 =>
    obtain ⟨meanings, hmeanings, rfl⟩ := Option.map_eq_some_iff.mp hread
    rw [jsonWeight, weight, itemsWeight_eq, pairsWeight_eq]
    exact sum_le_of_forall₂ (readAll_eq_some.mp hmeanings) fun _ _ hentry => weight_readPair h hentry
  case h_17 descriptorFields properties =>
    rw [Option.ite_none_right_eq_some] at hread
    obtain ⟨⟨hnodup, hlabels⟩, hread⟩ := hread
    obtain ⟨meanings, hmeanings, rfl⟩ := Option.map_eq_some_iff.mp hread
    rw [jsonWeight, weight, ← propertiesWeight_printed, propertiesWeight_eq, meaningsWeight_eq]
    refine (sum_le_sum_find _ hnodup hlabels).trans ?_
    rw [List.map_map]
    exact sum_le_of_forall₂ (readAll_eq_some.mp hmeanings) fun _ _ hfield => weight_readField h hfield
  case h_18 descriptorFields items =>
    rw [Option.ite_none_right_eq_some] at hread
    obtain ⟨hlength, hread⟩ := hread
    obtain ⟨meanings, hmeanings, rfl⟩ := Option.map_eq_some_iff.mp hread
    have hitems : (descriptorFields.zip items).map Prod.snd = items := List.map_snd_zip hlength.le
    rw [jsonWeight, weight, itemsWeight_eq, meaningsWeight_eq]
    conv_lhs => rw [← hitems, List.map_map]
    exact sum_le_of_forall₂ (readAll_eq_some.mp hmeanings) fun _ _ hfield => h hfield
  case h_19 =>
    rw [jsonWeight, ← propertiesWeight_printed]
    exact weight_readVariant h hread
  case h_20 =>
    rw [Option.ite_none_right_eq_some] at hread
    cases hread.2
    exact Nat.le_refl _
  case h_21 => cases hread

end Reading

theorem weight_readJson {registry : Registry} {fuel : Nat} {json : DamlValue} {descriptor : DamlTypeDescriptor}
    {meaning : Meaning} (h : readJson registry fuel json descriptor = some meaning) :
    jsonWeight json ≤ weight meaning := by
  induction fuel generalizing json descriptor meaning with
  | zero => cases h
  | succ fuel ih =>
      cases descriptor with
      | namedReference identity typeArguments =>
          obtain ⟨resolved, _, hvalue⟩ := Option.bind_eq_some_iff.mp h
          exact ih hvalue
      | _ => exact weight_readJsonValue ih h

/-! ## Submitted values -/

mutual

theorem weight_submitted : ∀ value : DamlValue, valueWeight (submitted value) ≤ jsonWeight (mapJsonValue value)
  | .array items => by
      rw [submitted_array, valueWeight, mapJsonValue, jsonWeight]
      exact weight_items items
  | .object properties => by
      rw [submitted_object, valueWeight, mapJsonValue, jsonWeight]
      exact weight_fields properties
  | .record fields recordId => by
      rw [submitted_record, valueWeight, mapJsonValue, jsonWeight]
      exact weight_fields fields
  | .textMap entries => by
      rw [submitted_textMap, valueWeight, mapJsonValue, jsonWeight, propertiesWeight, propertiesWeight, jsonWeight]
      have hentries := weight_entries entries
      omega
  | .genMap entries => by
      rw [submitted_genMap, valueWeight, mapJsonValue, jsonWeight, propertiesWeight, propertiesWeight, jsonWeight]
      exact Nat.le_add_right_of_le (weight_pairs entries)
  | .variant constructorName value variantId => by
      have hvalue := weight_submitted value
      change 1 + valueWeight (submitted value) ≤ _
      rw [mapJsonValue, jsonWeight, propertiesWeight, propertiesWeight, jsonWeight]
      omega
  | .enum constructorName enumId => by
      rw [mapJsonValue, jsonWeight, propertiesWeight, jsonWeight]
      exact Nat.le_add_right _ _
  | .undefined | .null | .unit | .bigint _ => Nat.zero_le _
  | .bool _ | .integer _ | .fraction _ | .string _ | .party _ | .numeric _ | .date _ | .timestamp _
  | .contractId _ => Nat.le_refl _
termination_by structural value => value

theorem weight_items : ∀ items : List DamlValue,
    elementsWeight (items.map submitted) ≤ itemsWeight (mapJsonItems items)
  | [] => Nat.le_refl _
  | item :: rest => Nat.add_le_add (weight_submitted item) (weight_items rest)
termination_by structural items => items

theorem weight_fields : ∀ fields : List (String × DamlValue),
    partsWeight (submittedFields fields) ≤ propertiesWeight (mapJsonFields fields)
  | [] => Nat.le_refl _
  | (_, value) :: rest => Nat.add_le_add (weight_submitted value) (weight_fields rest)
termination_by structural fields => fields

/-- The keys of a text map are scalars of the JSON. -/
theorem weight_entries : ∀ entries : List (String × DamlValue),
    partsWeight (submittedFields entries) + entries.length ≤ itemsWeight (mapJsonEntries entries)
  | [] => Nat.le_refl _
  | (key, value) :: rest => by
      have hvalue := weight_submitted value
      have hrest := weight_entries rest
      change valueWeight (submitted value) + partsWeight (submittedFields rest) + (rest.length + 1) ≤ _
      rw [mapJsonEntries, itemsWeight, jsonWeight, itemsWeight, itemsWeight, itemsWeight, jsonWeight]
      omega
termination_by structural entries => entries

theorem weight_pairs : ∀ entries : List (DamlValue × DamlValue),
    partPairsWeight (entries.map fun entry => (some (submitted entry.1), some (submitted entry.2)))
      ≤ itemsWeight (mapJsonPairs entries)
  | [] => Nat.le_refl _
  | (key, value) :: rest => by
      have hkey := weight_submitted key
      have hvalue := weight_submitted value
      have hrest := weight_pairs rest
      change valueWeight (submitted key) + valueWeight (submitted value) + partPairsWeight (rest.map _) ≤ _
      rw [mapJsonPairs, itemsWeight, jsonWeight, itemsWeight, itemsWeight, itemsWeight]
      omega
termination_by structural entries => entries

end

end CantonSdk.Commands
