import CantonSdk.DamlValues.Fuel
import CantonSdk.DamlValues.LedgerKeys

/-!
# Values of one type

Two values of one type have one kind, and their parts that stand at the same place have one type.
-/

set_option linter.all false

namespace CantonSdk.DamlValues

open CantonSdk.Base CantonSdk.Query.Canonical CantonSdk.Query.Grpc

variable {registry : Registry} {descriptor resolved : DamlTypeDescriptor} {value : Value}

/-- A Ledger API value of a type. -/
def HasType (registry : Registry) (descriptor : DamlTypeDescriptor) (value : Value) : Prop :=
  ∃ meaning, Denotes registry value descriptor meaning

/-- What a descriptor is once its references are resolved. -/
inductive Resolves (registry : Registry) : DamlTypeDescriptor → DamlTypeDescriptor → Prop
  | here {descriptor : DamlTypeDescriptor} (h : ∀ identity typeArguments, descriptor ≠ .namedReference identity typeArguments) :
      Resolves registry descriptor descriptor
  | reference {identity : DamlTypeIdentity} {typeArguments : List DamlTypeDescriptor} {descriptor resolved : DamlTypeDescriptor}
      (h : registry identity typeArguments = some descriptor) (hrest : Resolves registry descriptor resolved) :
      Resolves registry (.namedReference identity typeArguments) resolved

theorem resolves_unique {other : DamlTypeDescriptor} (h : Resolves registry descriptor resolved)
    (h' : Resolves registry descriptor other) : resolved = other := by
  induction h with
  | here hplain =>
      cases h' with
      | here _ => rfl
      | reference _ _ => exact absurd rfl (hplain _ _)
  | reference hfound _ ih =>
      cases h' with
      | here hplain => exact absurd rfl (hplain _ _)
      | reference hfound' hrest' =>
          obtain rfl := Option.some.inj (hfound.symm.trans hfound')
          exact ih hrest'

/-- A value of a type is one of the resolved type. -/
theorem exists_resolved (h : HasType registry descriptor value) :
    ∃ resolved fuel meaning, Resolves registry descriptor resolved ∧
      denoteValue (denote registry fuel) value resolved = some meaning := by
  obtain ⟨meaning, fuel, h⟩ := h
  induction fuel generalizing descriptor with
  | zero => cases h
  | succ fuel ih =>
      by_cases hreference : ∃ identity typeArguments, descriptor = .namedReference identity typeArguments
      · obtain ⟨identity, typeArguments, rfl⟩ := hreference
        rw [denote, Option.bind_eq_some_iff] at h
        obtain ⟨target, hfound, h⟩ := h
        obtain ⟨resolved, used, denoted, hresolves, hdenotes⟩ := ih h
        exact ⟨resolved, used, denoted, .reference hfound hresolves, hdenotes⟩
      · have hplain : ∀ identity typeArguments, descriptor ≠ .namedReference identity typeArguments :=
          fun identity typeArguments heq => hreference ⟨identity, typeArguments, heq⟩
        refine ⟨descriptor, fuel, meaning, .here hplain, ?_⟩
        cases descriptor with
        | namedReference identity typeArguments => exact absurd rfl (hplain identity typeArguments)
        | _ => exact h

/-- The kind of the values of a resolved type. -/
def kindOfType : DamlTypeDescriptor → OneofKind
  | .primitive .unit _ => .unit
  | .primitive .bool _ => .bool
  | .primitive .int64 _ => .int64
  | .primitive .date _ => .date
  | .primitive .timestamp _ => .timestamp
  | .primitive .numeric _ => .numeric
  | .primitive .party _ => .party
  | .primitive .text _ => .text
  | .contractId _ => .contractId
  | .optional _ => .optional
  | .list _ => .list
  | .textMap _ => .textMap
  | .genMap _ _ => .genMap
  | .record _ => .record
  | .variant _ => .variant
  | .enum _ => .enum
  | .namedReference _ _ => .undefined

theorem kind_of_denoted {denoteInner : Value → DamlTypeDescriptor → Option Meaning} {meaning : Meaning}
    (h : denoteValue denoteInner value resolved = some meaning) : oneofKind value = kindOfType resolved := by
  unfold denoteValue at h
  split at h <;> first | rfl | cases h

/-- Values of one type have one kind. -/
theorem kind_eq_of_hasType {value' : Value} (h : HasType registry descriptor value)
    (h' : HasType registry descriptor value') : oneofKind value = oneofKind value' := by
  obtain ⟨resolved, _, _, hresolves, hdenotes⟩ := exists_resolved h
  obtain ⟨resolved', _, _, hresolves', hdenotes'⟩ := exists_resolved h'
  obtain rfl := resolves_unique hresolves hresolves'
  rw [kind_of_denoted hdenotes, kind_of_denoted hdenotes']

/-! ## Parts -/

theorem hasType_of_denote {fuel : Nat} {meaning : Meaning} (h : denote registry fuel value descriptor = some meaning) :
    HasType registry descriptor value :=
  ⟨meaning, fuel, h⟩

theorem optional_hasType {part : Option Value} (h : HasType registry descriptor (.optional part)) :
    ∃ element, Resolves registry descriptor (.optional element) ∧ ∀ inner ∈ part, HasType registry element inner := by
  obtain ⟨resolved, fuel, meaning, hresolves, hdenotes⟩ := exists_resolved h
  have hkind := kind_of_denoted hdenotes
  cases resolved with
  | optional element =>
      refine ⟨element, hresolves, ?_⟩
      intro inner hinner
      obtain rfl : part = some inner := hinner
      obtain ⟨_, hdenoted, _⟩ := Option.map_eq_some_iff.mp hdenotes
      exact hasType_of_denote hdenoted
  | primitive primitive => cases primitive <;> cases hkind
  | _ => cases hkind

theorem list_hasType {elements : List Value} (h : HasType registry descriptor (.list elements)) :
    ∃ element, Resolves registry descriptor (.list element) ∧ ∀ inner ∈ elements, HasType registry element inner := by
  obtain ⟨resolved, fuel, meaning, hresolves, hdenotes⟩ := exists_resolved h
  have hkind := kind_of_denoted hdenotes
  cases resolved with
  | list element =>
      refine ⟨element, hresolves, ?_⟩
      intro inner hinner
      obtain ⟨meanings, hmeanings, _⟩ := Option.map_eq_some_iff.mp hdenotes
      obtain ⟨_, _, hdenoted⟩ := forall₂_left (readAll_eq_some.mp hmeanings) inner hinner
      exact hasType_of_denote hdenoted
  | primitive primitive => cases primitive <;> cases hkind
  | _ => cases hkind

theorem textMap_hasType {entries : List Entry} (h : HasType registry descriptor (.textMap entries)) :
    ∃ element, Resolves registry descriptor (.textMap element) ∧
      ∀ entry ∈ entries, ∀ inner ∈ entry.2, HasType registry element inner := by
  obtain ⟨resolved, fuel, meaning, hresolves, hdenotes⟩ := exists_resolved h
  have hkind := kind_of_denoted hdenotes
  cases resolved with
  | textMap element =>
      refine ⟨element, hresolves, ?_⟩
      intro entry hentry inner hinner
      rw [denoteValue, Option.ite_none_right_eq_some] at hdenotes
      obtain ⟨meanings, hmeanings, _⟩ := Option.map_eq_some_iff.mp hdenotes.2
      obtain ⟨_, _, hdenoted⟩ := forall₂_left (readAll_eq_some.mp hmeanings) entry hentry
      obtain ⟨_, hdenoted, _⟩ := Option.map_eq_some_iff.mp hdenoted
      rw [Option.mem_def.mp hinner, Option.bind_some] at hdenoted
      exact hasType_of_denote hdenoted
  | primitive primitive => cases primitive <;> cases hkind
  | _ => cases hkind

theorem genMap_hasType {entries : List Pair} (h : HasType registry descriptor (.genMap entries)) :
    ∃ key element, Resolves registry descriptor (.genMap key element) ∧ ∀ entry ∈ entries,
      (∀ inner ∈ entry.1, HasType registry key inner) ∧ ∀ inner ∈ entry.2, HasType registry element inner := by
  obtain ⟨resolved, fuel, meaning, hresolves, hdenotes⟩ := exists_resolved h
  have hkind := kind_of_denoted hdenotes
  cases resolved with
  | genMap key element =>
      refine ⟨key, element, hresolves, ?_⟩
      intro entry hentry
      obtain ⟨meanings, hmeanings, _⟩ := Option.map_eq_some_iff.mp hdenotes
      obtain ⟨_, _, hpair⟩ := forall₂_left (readAll_eq_some.mp hmeanings) entry hentry
      obtain ⟨_, hkey, hrest⟩ := Option.bind_eq_some_iff.mp hpair
      obtain ⟨_, hvalue, _⟩ := Option.map_eq_some_iff.mp hrest
      constructor
      · intro inner hinner
        rw [Option.mem_def.mp hinner, Option.bind_some] at hkey
        exact hasType_of_denote hkey
      · intro inner hinner
        rw [Option.mem_def.mp hinner, Option.bind_some] at hvalue
        exact hasType_of_denote hvalue
  | primitive primitive => cases primitive <;> cases hkind
  | _ => cases hkind

theorem variant_hasType {constructorName : String} {part : Option Value}
    (h : HasType registry descriptor (.variant constructorName part)) :
    ∃ constructors found, Resolves registry descriptor (.variant constructors) ∧
      (constructors.find? fun candidate => decide (candidate.constructorName = constructorName)) = some found ∧
      ∀ inner ∈ part, HasType registry found.payload inner := by
  obtain ⟨resolved, fuel, meaning, hresolves, hdenotes⟩ := exists_resolved h
  have hkind := kind_of_denoted hdenotes
  cases resolved with
  | variant constructors =>
      obtain ⟨found, hfound, hrest⟩ := Option.bind_eq_some_iff.mp hdenotes
      obtain ⟨_, hvalue, _⟩ := Option.map_eq_some_iff.mp hrest
      refine ⟨constructors, found, hresolves, hfound, ?_⟩
      intro inner hinner
      rw [Option.mem_def.mp hinner, Option.bind_some] at hvalue
      exact hasType_of_denote hvalue
  | primitive primitive => cases primitive <;> cases hkind
  | _ => cases hkind

/-- The fields of a labelled record have the types of the fields with their labels. -/
theorem record_hasType {fields : List Entry} (h : HasType registry descriptor (.record fields))
    (hlabelled : (fields.all fun field => !field.1.isEmpty) = true) :
    ∃ descriptorFields, Resolves registry descriptor (.record descriptorFields) ∧ ∀ field ∈ fields,
      (∃ descriptorField ∈ descriptorFields, descriptorField.damlLabel = field.1) ∧
      ∀ descriptorField ∈ descriptorFields, descriptorField.damlLabel = field.1 →
        ∀ inner ∈ field.2, HasType registry descriptorField.type inner := by
  obtain ⟨resolved, fuel, meaning, hresolves, hdenotes⟩ := exists_resolved h
  have hkind := kind_of_denoted hdenotes
  cases resolved with
  | record descriptorFields =>
      refine ⟨descriptorFields, hresolves, ?_⟩
      obtain ⟨values, hvalues, hrest⟩ := Option.bind_eq_some_iff.mp hdenotes
      obtain ⟨meanings, hmeanings, _⟩ := Option.map_eq_some_iff.mp hrest
      rw [sourceFields, if_pos hlabelled, Option.ite_none_right_eq_some] at hvalues
      obtain ⟨⟨hnodup, hperm⟩, hvalues⟩ := hvalues
      obtain rfl := Option.some.inj hvalues
      intro field hfield
      constructor
      · have hlabel := hperm.mem_iff.mp (List.mem_map_of_mem hfield)
        obtain ⟨descriptorField, hdescriptorField, hsame⟩ := List.mem_map.mp hlabel
        exact ⟨descriptorField, hdescriptorField, hsame⟩
      · intro descriptorField hdescriptorField hlabel inner hinner
        have hfound : (fields.find? fun candidate => decide (candidate.1 = descriptorField.damlLabel)) = some field :=
          hlabel ▸ (KeyedMap.find_eq_some hnodup).mpr hfield
        have hmem : (descriptorField, some inner) ∈ descriptorFields.zip (descriptorFields.map fun candidate =>
            ((fields.find? fun field => decide (field.1 = candidate.damlLabel)).map Prod.snd).join) := by
          have hzip := @List.zip_map' _ _ _ id (fun candidate : RecordField DamlTypeDescriptor =>
            ((fields.find? fun field => decide (field.1 = candidate.damlLabel)).map Prod.snd).join) descriptorFields
          rw [List.map_id] at hzip
          rw [hzip]
          refine List.mem_map.mpr ⟨descriptorField, hdescriptorField, ?_⟩
          rw [hfound, Option.map_some, Option.join_some, Option.mem_def.mp hinner]
          rfl
        obtain ⟨_, _, hdenoted⟩ := forall₂_left (readAll_eq_some.mp hmeanings) _ hmem
        exact hasType_of_denote hdenoted
  | primitive primitive => cases primitive <;> cases hkind
  | _ => cases hkind

end CantonSdk.DamlValues
