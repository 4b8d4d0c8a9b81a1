import CantonSdk.Base.Related
import CantonSdk.DamlInterface.Analyzer

/-!
# The analysis is closed and finite

Every step of the builder keeps the table sound: each key that has been met names a type of the
compilation, and each finished definition refers only to keys that have been met, with as many arguments as
the type has parameters. The steps only add to the table, so what a type was found to refer to stays there.
A nested definition takes one unit of fuel and one new key, and there are no more keys than types.
-/

set_option linter.all false

namespace CantonSdk.DamlInterface

open CantonSdk.Base CantonSdk.DamlLf

/-! ## What a type refers to -/

mutual

/-- The named references in a type, at any depth, each with the number of its arguments. -/
def AnalyzedDamlType.namedReferences : AnalyzedDamlType → List (TypeConReference × Nat)
  | .primitive _ _ => []
  | .contractId => []
  | .optional element => element.namedReferences
  | .list element => element.namedReferences
  | .textMap value => value.namedReferences
  | .genMap key value => key.namedReferences ++ value.namedReferences
  | .typeVariable _ _ => []
  | .namedReference identity typeArguments =>
      (identity, typeArguments.length) :: namedReferencesIn typeArguments

def namedReferencesIn : List AnalyzedDamlType → List (TypeConReference × Nat)
  | [] => []
  | type :: rest => type.namedReferences ++ namedReferencesIn rest

end

mutual

/-- The type variables in a type, at any depth. -/
def AnalyzedDamlType.typeVariables : AnalyzedDamlType → List (Option String × Int)
  | .primitive _ _ => []
  | .contractId => []
  | .optional element => element.typeVariables
  | .list element => element.typeVariables
  | .textMap value => value.typeVariables
  | .genMap key value => key.typeVariables ++ value.typeVariables
  | .typeVariable name internedStringIndex => [(name, internedStringIndex)]
  | .namedReference _ typeArguments => typeVariablesIn typeArguments

def typeVariablesIn : List AnalyzedDamlType → List (Option String × Int)
  | [] => []
  | type :: rest => type.typeVariables ++ typeVariablesIn rest

end

namespace AnalyzedDamlTypeDefinition

def identity : AnalyzedDamlTypeDefinition → TypeConReference
  | .record identity _ _ => identity
  | .variant identity _ _ => identity
  | .enum identity _ => identity

def typeParameters : AnalyzedDamlTypeDefinition → List DamlLfTypeParameter
  | .record _ typeParameters _ => typeParameters
  | .variant _ typeParameters _ => typeParameters
  | .enum _ _ => []

/-- The types of the fields of a record or of the payloads of a variant. -/
def types : AnalyzedDamlTypeDefinition → List AnalyzedDamlType
  | .record _ _ fields => fields.map AnalyzedDamlRecordField.type
  | .variant _ _ constructors => constructors.map AnalyzedDamlVariantConstructor.payload
  | .enum _ _ => []

end AnalyzedDamlTypeDefinition

def AnalyzedTemplate.types (template : AnalyzedTemplate) : List AnalyzedDamlType :=
  template.createFields.map AnalyzedTemplateField.type
    ++ template.choices.flatMap fun choice => [choice.parameterType, choice.returnType]

/-- The definitions with a given identity are one definition with the given number of parameters. -/
def DamlInterfaceAnalysisResult.Resolves (result : DamlInterfaceAnalysisResult)
    (reference : TypeConReference × Nat) : Prop :=
  ∃ definition, result.typeDefinitions.filter (fun d => decide (d.identity = reference.1)) = [definition] ∧
    definition.typeParameters.length = reference.2

/-- An analysis on which the emitters can rely. -/
structure DamlInterfaceAnalysisResult.Closed (result : DamlInterfaceAnalysisResult) : Prop where
  templates_resolve : ∀ template ∈ result.templates, ∀ type ∈ template.types,
    ∀ reference ∈ type.namedReferences, result.Resolves reference
  definitions_resolve : ∀ definition ∈ result.typeDefinitions, ∀ type ∈ definition.types,
    ∀ reference ∈ type.namedReferences, result.Resolves reference
  variables_bound : ∀ definition ∈ result.typeDefinitions, ∀ type ∈ definition.types,
    ∀ variable_ ∈ type.typeVariables, ∃ parameter ∈ definition.typeParameters,
      (parameter.name, parameter.internedStringIndex) = variable_
  no_variables_outside : ∀ template ∈ result.templates, ∀ type ∈ template.types, type.typeVariables = []
  listed_once : (result.typeDefinitions.map AnalyzedDamlTypeDefinition.identity).Nodup

/-! ## The table of the builder -/

section Table

variable {compilation : DamlLfCompilation} {b b' b'' : Builder} {fuel : Nat}

/-- The reference has the canonical identity of a key that has been met, and the type behind it has that
many parameters. -/
def ResolvedReference (compilation : DamlLfCompilation) (b : Builder)
    (reference : TypeConReference × Nat) : Prop :=
  b.canonicalIdentities.get reference.1.key = some reference.1 ∧
    reference.1.key ∈ b.definitionKeys ∧
    ∃ dataType, compilation.typeSymbols.get reference.1.key = some dataType ∧
      dataType.typeParameters.length = reference.2

structure ClosedType (compilation : DamlLfCompilation) (b : Builder)
    (parameters : List DamlLfTypeParameter) (type : AnalyzedDamlType) : Prop where
  references : ∀ reference ∈ type.namedReferences, ResolvedReference compilation b reference
  bound : ∀ variable_ ∈ type.typeVariables, ∃ parameter ∈ parameters,
    (parameter.name, parameter.internedStringIndex) = variable_

structure ClosedDefinition (compilation : DamlLfCompilation) (b : Builder) (key : String)
    (definition : AnalyzedDamlTypeDefinition) : Prop where
  canonical : b.canonicalIdentities.get key = some definition.identity
  arity : ∃ dataType, compilation.typeSymbols.get key = some dataType ∧
    definition.typeParameters.length = dataType.typeParameters.length
  types : ∀ type ∈ definition.types, ClosedType compilation b definition.typeParameters type

/-- The second table has everything the first has. -/
structure Leads (b b' : Builder) : Prop where
  identities : ∀ key identity, b.canonicalIdentities.get key = some identity →
    b'.canonicalIdentities.get key = some identity
  registered : ∀ key ∈ b.definitionKeys, key ∈ b'.definitionKeys

/-- A table in which every key that has been met names a type, every finished definition is closed, and
there is fuel for every type that has not been met. -/
structure Sound (compilation : DamlLfCompilation) (fuel : Nat) (b : Builder) : Prop where
  keys_eq : b.definitionKeys = b.definitions.keys
  identity_key : ∀ key identity, b.canonicalIdentities.get key = some identity → identity.key = key
  resolved : ∀ key ∈ b.definitionKeys, key ∈ compilation.typeSymbols.keys
  closed : ∀ key definition, b.definitions.get key = some (some definition) →
    ClosedDefinition compilation b key definition
  room : compilation.typeSymbols.keys.length ≤ b.definitionKeys.length + fuel

theorem Leads.refl (b : Builder) : Leads b b := ⟨fun _ _ h => h, fun _ h => h⟩

theorem Leads.trans (h : Leads b b') (h' : Leads b' b'') : Leads b b'' where
  identities key identity hkey := h'.identities key identity (h.identities key identity hkey)
  registered key hkey := h'.registered key (h.registered key hkey)

theorem ResolvedReference.mono {reference : TypeConReference × Nat}
    (h : ResolvedReference compilation b reference) (hlead : Leads b b') :
    ResolvedReference compilation b' reference :=
  ⟨hlead.identities _ _ h.1, hlead.registered _ h.2.1, h.2.2⟩

theorem ClosedType.mono {parameters : List DamlLfTypeParameter} {type : AnalyzedDamlType}
    (h : ClosedType compilation b parameters type) (hlead : Leads b b') :
    ClosedType compilation b' parameters type where
  references reference href := (h.references reference href).mono hlead
  bound := h.bound

theorem ClosedType.weaken {parameters parameters' : List DamlLfTypeParameter} {type : AnalyzedDamlType}
    (h : ClosedType compilation b parameters type) (hsub : ∀ p ∈ parameters, p ∈ parameters') :
    ClosedType compilation b parameters' type where
  references := h.references
  bound v hv := by
    obtain ⟨parameter, hparameter, heq⟩ := h.bound v hv
    exact ⟨parameter, hsub parameter hparameter, heq⟩

theorem ClosedDefinition.mono {key : String} {definition : AnalyzedDamlTypeDefinition}
    (h : ClosedDefinition compilation b key definition) (hlead : Leads b b') :
    ClosedDefinition compilation b' key definition where
  canonical := hlead.identities _ _ h.canonical
  arity := h.arity
  types type htype := (h.types type htype).mono hlead

theorem Sound.keys_nodup (h : Sound compilation fuel b) : b.definitionKeys.Nodup := by
  rw [h.keys_eq]
  exact b.definitions.keys_nodup'

theorem Sound.more_fuel (h : Sound compilation fuel b) : Sound compilation (fuel + 1) b where
  keys_eq := h.keys_eq
  identity_key := h.identity_key
  resolved := h.resolved
  closed := h.closed
  room := by
    have := h.room
    omega

/-- A type that has not been met leaves room for one more key. -/
theorem Sound.fuel_pos {key : String} (h : Sound compilation fuel b) (hfresh : key ∉ b.definitionKeys)
    (hkey : key ∈ compilation.typeSymbols.keys) : 0 < fuel := by
  have hnodup : (key :: b.definitionKeys).Nodup := List.nodup_cons.mpr ⟨hfresh, h.keys_nodup⟩
  have hsub : (key :: b.definitionKeys) ⊆ compilation.typeSymbols.keys := by
    intro other hother
    cases List.mem_cons.mp hother with
    | inl heq => exact heq ▸ hkey
    | inr hmem => exact h.resolved other hmem
  have hlength := (List.subperm_of_subset hnodup hsub).length_le
  have hroom := h.room
  rw [List.length_cons] at hlength
  omega

theorem Sound.empty (compilation : DamlLfCompilation) :
    Sound compilation compilation.typeSymbols.keys.length Builder.empty where
  keys_eq := rfl
  identity_key key identity h := by cases h
  resolved key h := by cases h
  closed key definition h := by cases h
  room := by simp [Builder.empty]

theorem leads_reserve (key : String) (b : Builder) : Leads b (b.reserve key) where
  identities _ _ h := h
  registered _ h := List.mem_append_left _ h

theorem leads_complete (key : String) (definition : AnalyzedDamlTypeDefinition) (b : Builder) :
    Leads b (b.complete key definition) := ⟨fun _ _ h => h, fun _ h => h⟩

theorem Sound.reserve {key : String} (h : Sound compilation (fuel + 1) b)
    (hfresh : key ∉ b.definitionKeys) (hkey : key ∈ compilation.typeSymbols.keys) :
    Sound compilation fuel (b.reserve key) where
  keys_eq := by
    have hkeys : key ∉ b.definitions.keys := h.keys_eq ▸ hfresh
    rw [Builder.reserve, KeyedMap.keys_set, if_neg hkeys, h.keys_eq]
  identity_key := h.identity_key
  resolved other hother := by
    cases List.mem_append.mp hother with
    | inl hmem => exact h.resolved other hmem
    | inr hmem => exact (List.mem_singleton.mp hmem) ▸ hkey
  closed other definition hget := by
    have hne : other ≠ key := by
      intro heq
      rw [Builder.reserve, heq, KeyedMap.get_set_self] at hget
      cases hget
    rw [Builder.reserve, KeyedMap.get_set_ne hne] at hget
    exact (h.closed other definition hget).mono (leads_reserve key b)
  room := by
    have hlength : (b.reserve key).definitionKeys.length = b.definitionKeys.length + 1 := by
      simp [Builder.reserve]
    have hroom := h.room
    omega

theorem Sound.complete {key : String} {definition : AnalyzedDamlTypeDefinition}
    (h : Sound compilation fuel b) (hkey : key ∈ b.definitionKeys)
    (hdefinition : ClosedDefinition compilation b key definition) :
    Sound compilation fuel (b.complete key definition) where
  keys_eq := by
    have hkeys : key ∈ b.definitions.keys := h.keys_eq ▸ hkey
    rw [Builder.complete, KeyedMap.keys_set, if_pos hkeys]
    exact h.keys_eq
  identity_key := h.identity_key
  resolved := h.resolved
  closed other definition' hget := by
    by_cases hother : other = key
    · rw [Builder.complete, hother, KeyedMap.get_set_self] at hget
      obtain rfl := Option.some.inj (Option.some.inj hget)
      exact hother ▸ hdefinition.mono (leads_complete key definition b)
    · rw [Builder.complete, KeyedMap.get_set_ne hother] at hget
      exact (h.closed other definition' hget).mono (leads_complete key definition b)
  room := h.room

end Table

end CantonSdk.DamlInterface
