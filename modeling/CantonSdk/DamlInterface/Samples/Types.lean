import CantonSdk.Base.KeyedMap
import CantonSdk.Base.Traversal
import CantonSdk.DamlLf.Model
import CantonSdk.DamlValues.Descriptor

/-!
# Types and scopes of the sample emitter

The sample emitter reads the types of the analysis, and the records, variants and enumerations that its callers state
inline. A definition is entered with its parameters bound to the arguments of the reference, resolved where the reference
stands; what a variable is bound to has no variables of its own.
-/

set_option linter.all false

namespace CantonSdk.DamlInterface.Samples

open CantonSdk.Base CantonSdk.DamlLf CantonSdk.DamlValues

/-- `AnalyzedDamlType`, with the inline shapes. -/
inductive AnalyzedType
  | primitive (builtinType : DamlPrimitiveType) (numericScale : Option Nat)
  | contractId
  | optional (element : AnalyzedType)
  | list (element : AnalyzedType)
  | textMap (value : AnalyzedType)
  | genMap (key value : AnalyzedType)
  | record (fields : List (RecordField AnalyzedType))
  | variant (constructors : List (VariantConstructor AnalyzedType))
  | enum (constructors : List String)
  | typeVariable (name : Option String) (internedStringIndex : Int)
  | namedReference (identity : TypeConReference) (typeArguments : List AnalyzedType)

/-- `AnalyzedDamlTypeDefinition`. -/
inductive TypeDefinition
  | record (identity : TypeConReference) (typeParameters : List DamlLfTypeParameter)
      (fields : List (RecordField AnalyzedType))
  | variant (identity : TypeConReference) (typeParameters : List DamlLfTypeParameter)
      (constructors : List (VariantConstructor AnalyzedType))
  | enum (identity : TypeConReference) (constructors : List String)

namespace TypeDefinition

def identity : TypeDefinition → TypeConReference
  | .record identity _ _ => identity
  | .variant identity _ _ => identity
  | .enum identity _ => identity

def typeParameters : TypeDefinition → List DamlLfTypeParameter
  | .record _ typeParameters _ => typeParameters
  | .variant _ typeParameters _ => typeParameters
  | .enum _ _ => []

/-- The definition, as a type. -/
def shape : TypeDefinition → AnalyzedType
  | .record _ _ fields => .record fields
  | .variant _ _ constructors => .variant constructors
  | .enum _ constructors => .enum constructors

end TypeDefinition

/-- What the sample emitter uses of a `GeneratedNamedTypeFile`. -/
structure NamedTypeFile where
  path : String
  packageId : String
  moduleName : String
  exportedTypeNamesByIdentity : KeyedMap String String
  fieldPropertyNames : KeyedMap String String

/-! ## Type variables -/

/-- What `typeVariableKey` is made of. -/
abbrev VariableKey := Option String × Int

/-- `typeVariableKey`. -/
def variableText (key : VariableKey) : String :=
  match key.1 with
  | none => "#" ++ toString key.2
  | some name => name ++ "\x00" ++ toString key.2

def parameterKey (parameter : DamlLfTypeParameter) : VariableKey := (parameter.name, parameter.internedStringIndex)

abbrev Bindings := KeyedMap VariableKey AnalyzedType

mutual

def resolveTypeVariables (bindings : Bindings) : AnalyzedType → AnalyzedType
  | .typeVariable name internedStringIndex =>
      (bindings.get (name, internedStringIndex)).getD (.typeVariable name internedStringIndex)
  | .optional element => .optional (resolveTypeVariables bindings element)
  | .list element => .list (resolveTypeVariables bindings element)
  | .textMap value => .textMap (resolveTypeVariables bindings value)
  | .genMap key value => .genMap (resolveTypeVariables bindings key) (resolveTypeVariables bindings value)
  | .record fields => .record (resolveFields bindings fields)
  | .variant constructors => .variant (resolveConstructors bindings constructors)
  | .namedReference identity typeArguments => .namedReference identity (resolveArguments bindings typeArguments)
  | .primitive builtinType numericScale => .primitive builtinType numericScale
  | .contractId => .contractId
  | .enum constructors => .enum constructors

def resolveFields (bindings : Bindings) : List (RecordField AnalyzedType) → List (RecordField AnalyzedType)
  | [] => []
  | ⟨damlLabel, propertyName, type⟩ :: rest =>
      ⟨damlLabel, propertyName, resolveTypeVariables bindings type⟩ :: resolveFields bindings rest

def resolveConstructors (bindings : Bindings) :
    List (VariantConstructor AnalyzedType) → List (VariantConstructor AnalyzedType)
  | [] => []
  | ⟨constructorName, payload⟩ :: rest =>
      ⟨constructorName, resolveTypeVariables bindings payload⟩ :: resolveConstructors bindings rest

def resolveArguments (bindings : Bindings) : List AnalyzedType → List AnalyzedType
  | [] => []
  | type :: rest => resolveTypeVariables bindings type :: resolveArguments bindings rest

end

/-- The parameters bound to the arguments; a parameter that is listed twice has its last argument. -/
def enterParameters (scope : Bindings) : List DamlLfTypeParameter → List AnalyzedType → Bindings → Bindings
  | parameter :: parameters, argument :: typeArguments, bindings =>
      enterParameters scope parameters typeArguments
        (bindings.set (parameterKey parameter) (resolveTypeVariables scope argument))
  | _, _, bindings => bindings

/-! ## Fingerprints -/

mutual

/-- `typeFingerprint`, given the text for a variable. -/
def fingerprintWith (bound : VariableKey → String) : AnalyzedType → String
  | .typeVariable name internedStringIndex => bound (name, internedStringIndex)
  | .namedReference identity typeArguments =>
      identity.key ++ "<" ++ ",".intercalate (fingerprintsWith bound typeArguments) ++ ">"
  | .primitive builtinType numericScale =>
      "primitive:" ++ builtinType.memberText ++ ":" ++ (numericScale.map toString).getD ""
  | .contractId => "contractId"
  | .optional _ => "optional"
  | .list _ => "list"
  | .textMap _ => "textMap"
  | .genMap _ _ => "genMap"
  | .record _ => "record"
  | .variant _ => "variant"
  | .enum _ => "enum"

def fingerprintsWith (bound : VariableKey → String) : List AnalyzedType → List String
  | [] => []
  | type :: rest => fingerprintWith bound type :: fingerprintsWith bound rest

end

/-- The text for a variable: the fingerprint of what it is bound to. -/
def boundFingerprint (bindings : Bindings) (key : VariableKey) : String :=
  match bindings.get key with
  | none => variableText key
  | some resolved => fingerprintWith variableText resolved

def referenceKey (identity : TypeConReference) (typeArguments : List AnalyzedType) (bindings : Bindings) : String :=
  fingerprintWith (boundFingerprint bindings) (.namedReference identity typeArguments)

/-! ## Closed inputs -/

mutual

/-- The type and everything in it. -/
def AnalyzedType.parts : AnalyzedType → List AnalyzedType
  | .optional element => .optional element :: element.parts
  | .list element => .list element :: element.parts
  | .textMap value => .textMap value :: value.parts
  | .genMap key value => .genMap key value :: (key.parts ++ value.parts)
  | .record fields => .record fields :: partsOfFields fields
  | .variant constructors => .variant constructors :: partsOfConstructors constructors
  | .namedReference identity typeArguments => .namedReference identity typeArguments :: partsOfArguments typeArguments
  | .primitive builtinType numericScale => [.primitive builtinType numericScale]
  | .contractId => [.contractId]
  | .enum constructors => [.enum constructors]
  | .typeVariable name internedStringIndex => [.typeVariable name internedStringIndex]

def partsOfFields : List (RecordField AnalyzedType) → List AnalyzedType
  | [] => []
  | ⟨_, _, type⟩ :: rest => type.parts ++ partsOfFields rest

def partsOfConstructors : List (VariantConstructor AnalyzedType) → List AnalyzedType
  | [] => []
  | ⟨_, payload⟩ :: rest => payload.parts ++ partsOfConstructors rest

def partsOfArguments : List AnalyzedType → List AnalyzedType
  | [] => []
  | type :: rest => type.parts ++ partsOfArguments rest

end

theorem mem_partsOfFields {part : AnalyzedType} {fields : List (RecordField AnalyzedType)} :
    part ∈ partsOfFields fields ↔ ∃ field ∈ fields, part ∈ field.type.parts := by
  induction fields with
  | nil => simp [partsOfFields]
  | cons field rest ih => simp only [partsOfFields, List.mem_append, ih, List.mem_cons, exists_eq_or_imp]

theorem mem_partsOfConstructors {part : AnalyzedType} {constructors : List (VariantConstructor AnalyzedType)} :
    part ∈ partsOfConstructors constructors ↔ ∃ constructor_ ∈ constructors, part ∈ constructor_.payload.parts := by
  induction constructors with
  | nil => simp [partsOfConstructors]
  | cons constructor_ rest ih => simp only [partsOfConstructors, List.mem_append, ih, List.mem_cons, exists_eq_or_imp]

theorem mem_partsOfArguments {part : AnalyzedType} {typeArguments : List AnalyzedType} :
    part ∈ partsOfArguments typeArguments ↔ ∃ argument ∈ typeArguments, part ∈ argument.parts := by
  induction typeArguments with
  | nil => simp [partsOfArguments]
  | cons argument rest ih => simp only [partsOfArguments, List.mem_append, ih, List.mem_cons, exists_eq_or_imp]

theorem resolveArguments_eq (bindings : Bindings) (typeArguments : List AnalyzedType) :
    resolveArguments bindings typeArguments = typeArguments.map (resolveTypeVariables bindings) := by
  induction typeArguments with
  | nil => rfl
  | cons argument rest ih => rw [resolveArguments, ih, List.map_cons]

theorem resolveFields_eq (bindings : Bindings) (fields : List (RecordField AnalyzedType)) :
    resolveFields bindings fields
      = fields.map fun field => { field with type := resolveTypeVariables bindings field.type } := by
  induction fields with
  | nil => rfl
  | cons field rest ih => rw [resolveFields, ih, List.map_cons]

theorem resolveConstructors_eq (bindings : Bindings) (constructors : List (VariantConstructor AnalyzedType)) :
    resolveConstructors bindings constructors
      = constructors.map fun constructor_ =>
        { constructor_ with payload := resolveTypeVariables bindings constructor_.payload } := by
  induction constructors with
  | nil => rfl
  | cons constructor_ rest ih => rw [resolveConstructors, ih, List.map_cons]

/-! ## Induction on types -/

/-- The types directly in a type. -/
def AnalyzedType.children : AnalyzedType → List AnalyzedType
  | .optional element => [element]
  | .list element => [element]
  | .textMap value => [value]
  | .genMap key value => [key, value]
  | .record fields => fields.map RecordField.type
  | .variant constructors => constructors.map VariantConstructor.payload
  | .namedReference _ typeArguments => typeArguments
  | .primitive .. | .contractId | .enum _ | .typeVariable .. => []

theorem mem_parts {part type : AnalyzedType} :
    part ∈ type.parts ↔ part = type ∨ ∃ child ∈ type.children, part ∈ child.parts := by
  cases type <;>
    simp [AnalyzedType.parts, AnalyzedType.children, mem_partsOfFields, mem_partsOfConstructors, mem_partsOfArguments]

theorem sizeOf_child {child type : AnalyzedType} (h : child ∈ type.children) : sizeOf child < sizeOf type := by
  cases type with
  | record fields =>
      obtain ⟨field, hfield, rfl⟩ := List.mem_map.mp h
      have hless := List.sizeOf_lt_of_mem hfield
      cases field
      simp only [AnalyzedType.record.sizeOf_spec, RecordField.mk.sizeOf_spec] at hless ⊢
      omega
  | variant constructors =>
      obtain ⟨constructor_, hconstructor, rfl⟩ := List.mem_map.mp h
      have hless := List.sizeOf_lt_of_mem hconstructor
      cases constructor_
      simp only [AnalyzedType.variant.sizeOf_spec, VariantConstructor.mk.sizeOf_spec] at hless ⊢
      omega
  | namedReference identity typeArguments =>
      have hless : sizeOf child < sizeOf typeArguments := List.sizeOf_lt_of_mem h
      simp only [AnalyzedType.namedReference.sizeOf_spec]
      omega
  | genMap key value =>
      simp only [AnalyzedType.children, List.mem_cons, List.not_mem_nil, or_false] at h
      rcases h with rfl | rfl <;> simp only [AnalyzedType.genMap.sizeOf_spec] <;> omega
  | optional element | list element | textMap element => simp_all [AnalyzedType.children]
  | primitive | contractId | enum | typeVariable => cases h

/-- What holds of a type when it holds of the types in it holds of every type. -/
theorem AnalyzedType.rec_children {P : AnalyzedType → Prop} (h : ∀ type, (∀ child ∈ type.children, P child) → P type)
    (type : AnalyzedType) : P type :=
  h type fun child _ => AnalyzedType.rec_children h child
termination_by sizeOf type
decreasing_by exact sizeOf_child ‹_›

/-! ## Types in a scope -/

abbrev DefinitionIndex := KeyedMap String TypeDefinition

section Scopes

variable (index : DefinitionIndex)

/-- A variable is bound, and a reference resolves to a definition with as many parameters as it has arguments. -/
def PartInScope (bound : VariableKey → Prop) : AnalyzedType → Prop
  | .typeVariable name internedStringIndex => bound (name, internedStringIndex)
  | .namedReference identity typeArguments =>
      ∃ definition, index.get identity.key = some definition ∧ definition.typeParameters.length = typeArguments.length
  | _ => True

def InScope (bound : VariableKey → Prop) (type : AnalyzedType) : Prop := ∀ part ∈ type.parts, PartInScope index bound part

instance decidablePart (bound : VariableKey → Prop) [DecidablePred bound] : DecidablePred (PartInScope index bound)
  | .typeVariable name internedStringIndex => inferInstanceAs (Decidable (bound (name, internedStringIndex)))
  | .namedReference identity typeArguments =>
      match h : index.get identity.key with
      | none => isFalse fun ⟨_, hsome, _⟩ => Option.some_ne_none _ (hsome.symm.trans h)
      | some definition =>
          decidable_of_iff (definition.typeParameters.length = typeArguments.length)
            ⟨fun hlength => ⟨definition, h, hlength⟩, fun ⟨_, hsome, hlength⟩ => Option.some.inj (h.symm.trans hsome) ▸ hlength⟩
  | .primitive .. | .contractId | .optional _ | .list _ | .textMap _ | .genMap .. | .record _ | .variant _ | .enum _ =>
      isTrue trivial

instance decidableInScope (bound : VariableKey → Prop) [DecidablePred bound] : DecidablePred (InScope index bound) :=
  fun type => inferInstanceAs (Decidable (∀ part ∈ type.parts, PartInScope index bound part))

/-- A type without variables whose references resolve. -/
def ClosedType (type : AnalyzedType) : Prop := InScope index (fun _ => False) type

def Bound (bindings : Bindings) (key : VariableKey) : Prop := ∃ type, bindings.get key = some type

structure ClosedBindings (bindings : Bindings) : Prop where
  closed : ∀ key type, bindings.get key = some type → ClosedType index type

/-- The types in a definition have its parameters as their only variables. -/
structure ClosedDefinition (definition : TypeDefinition) : Prop where
  inScope : ∀ type ∈ definition.shape.children,
    InScope index (fun key => key ∈ definition.typeParameters.map parameterKey) type

structure ClosedIndex : Prop where
  closed : ∀ key definition, index.get key = some definition → ClosedDefinition index definition

theorem closedIndex_of_entries (h : ∀ entry ∈ index.entries, ∀ type ∈ entry.2.shape.children,
    InScope index (fun key => key ∈ entry.2.typeParameters.map parameterKey) type) : ClosedIndex index :=
  ⟨fun key definition hdefinition => ⟨h (key, definition) (KeyedMap.get_eq_some.mp hdefinition)⟩⟩

variable {index} {bound bound' : VariableKey → Prop} {bindings scope : Bindings} {type : AnalyzedType}

theorem inScope_iff :
    InScope index bound type ↔ PartInScope index bound type ∧ ∀ child ∈ type.children, InScope index bound child := by
  constructor
  · intro h
    exact ⟨h type (mem_parts.mpr (.inl rfl)), fun child hchild part hpart => h part (mem_parts.mpr (.inr ⟨child, hchild, hpart⟩))⟩
  · rintro ⟨htype, hchildren⟩ part hpart
    rcases mem_parts.mp hpart with rfl | ⟨child, hchild, hmem⟩
    · exact htype
    · exact hchildren child hchild part hmem

theorem InScope.child {child : AnalyzedType} (h : InScope index bound type) (hchild : child ∈ type.children) :
    InScope index bound child :=
  (inScope_iff.mp h).2 child hchild

theorem InScope.mono (hle : ∀ key, bound key → bound' key) (h : InScope index bound type) : InScope index bound' type := by
  intro part hpart
  have hbound := h part hpart
  cases part with
  | typeVariable name internedStringIndex => exact hle _ hbound
  | namedReference identity typeArguments => exact hbound
  | _ => exact trivial

theorem ClosedType.inScope (h : ClosedType index type) : InScope index bound type := InScope.mono (fun _ => False.elim) h

/-- A closed type is no variable. -/
theorem not_closed_variable {name : Option String} {internedStringIndex : Int} :
    ¬ ClosedType index (.typeVariable name internedStringIndex) :=
  fun h => (inScope_iff.mp h).1

theorem children_resolve (h : ∀ name internedStringIndex, type ≠ .typeVariable name internedStringIndex) :
    (resolveTypeVariables bindings type).children = type.children.map (resolveTypeVariables bindings) := by
  cases type with
  | typeVariable name internedStringIndex => exact absurd rfl (h name internedStringIndex)
  | record fields => simp [resolveTypeVariables, AnalyzedType.children, resolveFields_eq]
  | variant constructors => simp [resolveTypeVariables, AnalyzedType.children, resolveConstructors_eq]
  | namedReference identity typeArguments => simp [resolveTypeVariables, AnalyzedType.children, resolveArguments_eq]
  | _ => simp [resolveTypeVariables, AnalyzedType.children]

/-- Resolved in a closed scope, a type is closed. -/
theorem closed_resolve (hscope : ClosedBindings index scope) (h : InScope index (Bound scope) type) :
    ClosedType index (resolveTypeVariables scope type) := by
  induction type using AnalyzedType.rec_children with
  | h type ih =>
      by_cases hvariable : ∃ name internedStringIndex, type = .typeVariable name internedStringIndex
      · obtain ⟨name, internedStringIndex, rfl⟩ := hvariable
        obtain ⟨resolved, hresolved⟩ := (inScope_iff.mp h).1
        rw [resolveTypeVariables, hresolved]
        exact hscope.closed _ _ hresolved
      · have hne : ∀ name internedStringIndex, type ≠ .typeVariable name internedStringIndex :=
          fun name internedStringIndex heq => hvariable ⟨name, internedStringIndex, heq⟩
        refine inScope_iff.mpr ⟨?_, ?_⟩
        · have hpart := (inScope_iff.mp h).1
          cases type with
          | typeVariable name internedStringIndex => exact absurd rfl (hne name internedStringIndex)
          | namedReference identity typeArguments =>
              obtain ⟨definition, hdefinition, hlength⟩ := hpart
              exact ⟨definition, hdefinition, by rw [hlength, resolveArguments_eq, List.length_map]⟩
          | _ => exact trivial
        · rw [children_resolve hne]
          intro child hchild
          obtain ⟨original, horiginal, rfl⟩ := List.mem_map.mp hchild
          exact ih original horiginal (h.child horiginal)

variable {parameters : List DamlLfTypeParameter} {typeArguments : List AnalyzedType}

/-- What is bound after entering was bound before, or is an argument. -/
theorem get_enterParameters {key : VariableKey}
    (h : (enterParameters scope parameters typeArguments bindings).get key = some type) :
    bindings.get key = some type ∨ ∃ argument ∈ typeArguments, type = resolveTypeVariables scope argument := by
  induction parameters generalizing typeArguments bindings with
  | nil => exact .inl h
  | cons parameter rest ih =>
      cases typeArguments with
      | nil => exact .inl h
      | cons argument others =>
          rcases ih h with hset | ⟨other, hother, rfl⟩
          · rw [KeyedMap.get_set] at hset
            split_ifs at hset
            · exact .inr ⟨argument, List.mem_cons_self, (Option.some.inj hset).symm⟩
            · exact .inl hset
          · exact .inr ⟨other, List.mem_cons_of_mem _ hother, rfl⟩

theorem closed_enter (hscope : ClosedBindings index scope) (hbindings : ClosedBindings index bindings)
    (harguments : ∀ argument ∈ typeArguments, InScope index (Bound scope) argument) :
    ClosedBindings index (enterParameters scope parameters typeArguments bindings) := by
  refine ⟨fun key type h => ?_⟩
  rcases get_enterParameters h with hbefore | ⟨argument, hmem, rfl⟩
  · exact hbindings.closed key type hbefore
  · exact closed_resolve hscope (harguments argument hmem)

theorem bound_enter_of_bound {key : VariableKey} (h : Bound bindings key) :
    Bound (enterParameters scope parameters typeArguments bindings) key := by
  induction parameters generalizing typeArguments bindings with
  | nil => exact h
  | cons parameter rest ih =>
      cases typeArguments with
      | nil => exact h
      | cons argument others =>
          refine ih ?_
          rw [Bound, KeyedMap.get_set]
          split_ifs
          · exact ⟨_, rfl⟩
          · exact h

theorem bound_enter {key : VariableKey} (hlength : parameters.length = typeArguments.length)
    (h : key ∈ parameters.map parameterKey) : Bound (enterParameters scope parameters typeArguments bindings) key := by
  induction parameters generalizing typeArguments bindings with
  | nil => cases h
  | cons parameter rest ih =>
      cases typeArguments with
      | nil => cases hlength
      | cons argument others =>
          rcases List.mem_cons.mp h with rfl | hrest
          · have hset : Bound (bindings.set (parameterKey parameter) (resolveTypeVariables scope argument))
                (parameterKey parameter) := ⟨_, KeyedMap.get_set_self ..⟩
            show Bound (enterParameters scope rest others _) _
            exact bound_enter_of_bound hset
          · exact ih (Nat.succ.inj hlength) hrest

/-- The types in a definition are in the scope that it is entered with. -/
theorem ClosedIndex.entered (hindex : ClosedIndex index) {key : String} {definition : TypeDefinition}
    (hdefinition : index.get key = some definition) (hlength : definition.typeParameters.length = typeArguments.length)
    {child : AnalyzedType} (hchild : child ∈ definition.shape.children) :
    InScope index (Bound (enterParameters scope definition.typeParameters typeArguments bindings)) child :=
  ((hindex.closed key definition hdefinition).inScope child hchild).mono fun _ => bound_enter hlength

end Scopes

end CantonSdk.DamlInterface.Samples
