import CantonSdk.DamlInterface.Closed

/-!
# Runs of the builder

A rule for each step of the builder says that it keeps the table sound, adds to it, and returns types that
the table closes; the recursion through named types follows by induction on the fuel, and the analysis of a
whole compilation from the loops over its templates and data types.
-/

set_option linter.all false

namespace CantonSdk.DamlInterface

open CantonSdk.Base CantonSdk.DamlLf

/-- Any error but the end of the fuel. -/
def NotOutOfFuel (error : InterfaceError) : Prop := error ≠ .outOfFuel

/-- From the table, the step ends in a sound table that leads on from it, with a result as described. -/
def Keeps {α : Type} (compilation : DamlLfCompilation) (fuel : Nat) (x : Build α) (b : Builder)
    (good : α → Builder → Prop) : Prop :=
  Ends NotOutOfFuel x b fun a b' => Sound compilation fuel b' ∧ Leads b b' ∧ good a b'

section Rules

variable {α β : Type} {compilation : DamlLfCompilation} {fuel : Nat} {b : Builder} {x : Build α}
  {good : α → Builder → Prop}

theorem notOutOfFuel_unsupported (context reason : String) : NotOutOfFuel (unsupported context reason) :=
  nofun

theorem keeps_pure {a : α} (hsound : Sound compilation fuel b) (h : good a b) :
    Keeps compilation fuel (pure a) b good :=
  ends_pure ⟨hsound, Leads.refl b, h⟩

theorem keeps_throw {error : InterfaceError} (h : NotOutOfFuel error) :
    Keeps compilation fuel (throw error) b good :=
  ends_throw h

theorem keeps_unsupported (context reason : String) :
    Keeps compilation fuel (throw (unsupported context reason)) b good :=
  keeps_throw (notOutOfFuel_unsupported context reason)

theorem Keeps.bind {f : α → Build β} {good' : β → Builder → Prop} (h : Keeps compilation fuel x b good)
    (hf : ∀ a b', Sound compilation fuel b' → Leads b b' → good a b' → Keeps compilation fuel (f a) b' good') :
    Keeps compilation fuel (x >>= f) b good' := by
  apply Ends.bind h
  intro a b' ha
  obtain ⟨hsound, hlead, hgood⟩ := ha
  apply (hf a b' hsound hlead hgood).mono
  intro c b'' hc
  exact ⟨hc.1, hlead.trans hc.2.1, hc.2.2⟩

theorem Keeps.map {f : α → β} {good' : β → Builder → Prop} (h : Keeps compilation fuel x b good)
    (hf : ∀ a b', good a b' → good' (f a) b') : Keeps compilation fuel (f <$> x) b good' := by
  apply ends_map
  apply h.mono
  intro a b' ha
  exact ⟨ha.1, ha.2.1, hf a b' ha.2.2⟩

theorem Keeps.weaken {good' : α → Builder → Prop} (h : Keeps compilation fuel x b good)
    (hgood : ∀ a b', good a b' → good' a b') : Keeps compilation fuel x b good' := by
  apply h.mono
  intro a b' ha
  exact ⟨ha.1, ha.2.1, hgood a b' ha.2.2⟩

theorem keeps_mapM {γ : Type} {f : γ → Build β} {list : List γ} {good : γ → β → Builder → Prop}
    (hstable : ∀ a result s t, Leads s t → good a result s → good a result t)
    (hturn : ∀ a ∈ list, ∀ s, Sound compilation fuel s → Keeps compilation fuel (f a) s (good a))
    (hsound : Sound compilation fuel b) :
    Keeps compilation fuel (list.mapM f) b fun results b' =>
      List.Forall₂ (fun a result => good a result b') list results :=
  ends_mapM Leads.refl (fun _ _ _ => Leads.trans) hstable hturn hsound

theorem toPascalCase_error {value : String} {error : InterfaceError}
    (h : toPascalCase value = .error error) : NotOutOfFuel error := by
  unfold toPascalCase at h
  split at h
  · cases h
    nofun
  · cases h

theorem toCamelCase_error {value : String} {error : InterfaceError}
    (h : toCamelCase value = .error error) : NotOutOfFuel error := by
  unfold toCamelCase at h
  cases hpascal : toPascalCase value with
  | error pascalError =>
      rw [hpascal] at h
      cases h
      exact toPascalCase_error hpascal
  | ok pascalCase =>
      rw [hpascal] at h
      change (if pascalCase.isEmpty then _ else _) = _ at h
      split at h
      · cases h
        nofun
      · cases h

theorem toKebabCase_error {value : String} {error : InterfaceError}
    (h : toKebabCase value = .error error) : NotOutOfFuel error := by
  unfold toKebabCase at h
  cases hpascal : toPascalCase value with
  | error pascalError =>
      rw [hpascal] at h
      cases h
      exact toPascalCase_error hpascal
  | ok pascalCase =>
      rw [hpascal] at h
      cases h

theorem keeps_lift {y : Except InterfaceError α} (hsound : Sound compilation fuel b)
    (herror : ∀ error, y = .error error → NotOutOfFuel error) :
    Keeps compilation fuel (StateT.lift y) b fun _ _ => True :=
  ends_lift (fun _ _ => ⟨hsound, Leads.refl b, trivial⟩) herror

end Rules

/-! ## One reference -/

section Types

variable {compilation : DamlLfCompilation} {fuel : Nat} {b : Builder}

/-- An enumeration without type parameters, or no enumeration. -/
def Supported (dataType : DamlLfDataType) : Prop :=
  ∀ constructors, dataType.definition = .enum constructors → dataType.typeParameters = []

theorem getCanonicalIdentity_keeps (reference : TypeConReference) (hsound : Sound compilation fuel b) :
    Keeps compilation fuel (getCanonicalIdentity reference) b fun identity b' =>
      b'.canonicalIdentities.get reference.key = some identity := by
  unfold getCanonicalIdentity
  apply ends_bind
  apply ends_get
  cases hget : b.canonicalIdentities.get reference.key with
  | some identity => exact keeps_pure hsound hget
  | none =>
      have hlead : Leads b { b with
          canonicalIdentities := b.canonicalIdentities.set reference.key reference } := by
        refine ⟨?_, fun _ h => h⟩
        intro key identity hkey
        have hne : key ≠ reference.key := by
          intro heq
          rw [heq, hget] at hkey
          cases hkey
        rw [KeyedMap.get_set_ne hne]
        exact hkey
      apply ends_bind
      apply ends_set
      refine ends_pure ⟨⟨hsound.keys_eq, ?_, hsound.resolved, ?_, hsound.room⟩, hlead, ?_⟩
      · intro key identity hkey
        rw [KeyedMap.get_set] at hkey
        split at hkey
        · rename_i heq
          rw [heq, ← Option.some.inj hkey]
        · exact hsound.identity_key key identity hkey
      · intro key definition hkey
        exact (hsound.closed key definition hkey).mono hlead
      · exact KeyedMap.get_set_self _ _ _

theorem getDataTypeOrThrow_keeps (reference : TypeConReference) (context : String)
    (hsound : Sound compilation fuel b) :
    Keeps compilation fuel (getDataTypeOrThrow compilation reference context) b fun dataType _ =>
      compilation.typeSymbols.get reference.key = some dataType := by
  unfold getDataTypeOrThrow
  cases hget : compilation.getDataType reference with
  | some dataType => exact keeps_pure hsound hget
  | none => exact keeps_unsupported _ _

theorem typeParameterError_notOutOfFuel {context : String} {parameter : DamlLfTypeParameter}
    {error : InterfaceError} (h : typeParameterError context parameter = some error) :
    NotOutOfFuel error := by
  unfold typeParameterError at h
  split at h
  · cases h
    exact notOutOfFuel_unsupported _ _
  · split at h
    · cases h
    · cases h
      exact notOutOfFuel_unsupported _ _

theorem assertSupportedDataTypeParameters_keeps (dataType : DamlLfDataType) (context : String)
    (hsound : Sound compilation fuel b) :
    Keeps compilation fuel (assertSupportedDataTypeParameters dataType context) b fun _ _ =>
      Supported dataType := by
  unfold assertSupportedDataTypeParameters
  split
  · exact keeps_unsupported _ _
  · rename_i hother
    split
    · rename_i error hfind
      obtain ⟨_, _, herror⟩ := List.exists_of_findSome?_eq_some hfind
      exact keeps_throw (typeParameterError_notOutOfFuel herror)
    · apply keeps_pure hsound
      intro constructors hdefinition
      cases hparameters : dataType.typeParameters with
      | nil => rfl
      | cons first rest => exact absurd hparameters (hother _ _ _ hdefinition)

theorem assertNamedArgumentCount_keeps (typeArguments : List DamlLfType) (dataType : DamlLfDataType)
    (context : String) (hsound : Sound compilation fuel b) :
    Keeps compilation fuel (assertNamedArgumentCount typeArguments dataType context) b fun _ _ =>
      typeArguments.length = dataType.typeParameters.length := by
  unfold assertNamedArgumentCount
  simp only
  split
  · rename_i hlength
    exact keeps_pure hsound hlength
  · exact keeps_unsupported _ _

theorem assertArgumentCount_keeps (builtinType : DamlLfBuiltinType) (typeArguments : List DamlLfType)
    (expectedCount : Nat) (context : String) (hsound : Sound compilation fuel b) :
    Keeps compilation fuel (assertArgumentCount builtinType typeArguments expectedCount context) b
      fun _ _ => True := by
  unfold assertArgumentCount
  split
  · exact keeps_pure hsound trivial
  · exact keeps_unsupported _ _

/-! ## Types -/

/-- What registering a resolved reference must do for the types that refer to it. -/
def RegistersWithin (compilation : DamlLfCompilation) (fuel : Nat) (register : Register) : Prop :=
  ∀ reference identity dataType b, Sound compilation fuel b →
    b.canonicalIdentities.get reference.key = some identity →
    compilation.typeSymbols.get reference.key = some dataType → Supported dataType →
    Keeps compilation fuel (register reference identity dataType) b fun _ b' =>
      reference.key ∈ b'.definitionKeys

theorem buildTypeVariable_keeps (typeVariable : DamlLfTypeVariableReference)
    (typeArguments : List DamlLfType) (context : String) (scope : Scope)
    (hsound : Sound compilation fuel b) :
    Keeps compilation fuel (buildTypeVariable typeVariable typeArguments context scope) b
      fun type b' => ClosedType compilation b' scope.values type := by
  unfold buildTypeVariable
  simp only
  split
  · exact keeps_unsupported _ _
  · split
    · exact keeps_unsupported _ _
    · cases hget : scope.get typeVariable.internedStringIndex with
      | none => exact keeps_unsupported _ _
      | some parameter =>
          apply keeps_pure hsound
          refine ⟨by simp [AnalyzedDamlType.namedReferences], ?_⟩
          intro variable_ hvariable
          refine ⟨parameter, KeyedMap.mem_values.mpr ⟨_, hget⟩, ?_⟩
          exact (List.mem_singleton.mp hvariable).symm

/-- The references and variables of a list of types are those of its members. -/
theorem closed_arguments {parameters : List DamlLfTypeParameter} {types : List AnalyzedDamlType}
    (h : ∀ type ∈ types, ClosedType compilation b parameters type) :
    (∀ reference ∈ namedReferencesIn types, ResolvedReference compilation b reference) ∧
      ∀ variable_ ∈ typeVariablesIn types, ∃ parameter ∈ parameters,
        (parameter.name, parameter.internedStringIndex) = variable_ := by
  induction types with
  | nil => exact ⟨nofun, nofun⟩
  | cons first rest ih =>
      obtain ⟨hfirst, hrest⟩ := List.forall_mem_cons.mp h
      obtain ⟨hreferences, hvariables⟩ := ih hrest
      constructor
      · intro reference hreference
        cases List.mem_append.mp hreference with
        | inl hmem => exact hfirst.references reference hmem
        | inr hmem => exact hreferences reference hmem
      · intro variable_ hvariable
        cases List.mem_append.mp hvariable with
        | inl hmem => exact hfirst.bound variable_ hmem
        | inr hmem => exact hvariables variable_ hmem

variable {register : Register}

mutual

theorem buildOrThrow_keeps (hregister : RegistersWithin compilation fuel register) (type : DamlLfType)
    (context : String) (scope : Scope) (b : Builder) (hsound : Sound compilation fuel b) :
    Keeps compilation fuel (buildOrThrow compilation register type context scope) b
      fun type b' => ClosedType compilation b' scope.values type := by
  obtain ⟨builtinType, numericScale, typeConReference, typeVariable, diagnosticForall, typeArguments⟩ :=
    type
  rw [buildOrThrow.eq_def]
  dsimp only
  split
  · exact keeps_unsupported _ _
  · cases typeVariable with
    | some typeVariable => exact buildTypeVariable_keeps _ _ _ _ hsound
    | none =>
        cases typeConReference with
        | some reference =>
            dsimp only
            split
            · exact keeps_unsupported _ _
            · apply (getCanonicalIdentity_keeps reference hsound).bind
              intro identity b₁ hsound₁ _ hidentity
              apply (getDataTypeOrThrow_keeps reference context hsound₁).bind
              intro dataType b₂ hsound₂ hlead₂ hdataType
              apply (assertSupportedDataTypeParameters_keeps dataType context hsound₂).bind
              intro _ b₃ hsound₃ hlead₃ hsupported
              apply (assertNamedArgumentCount_keeps typeArguments dataType context hsound₃).bind
              intro _ b₄ hsound₄ hlead₄ hcount
              apply (buildArguments_keeps hregister typeArguments context scope b₄ hsound₄).bind
              intro analyzed b₅ hsound₅ hlead₅ hanalyzed
              have hidentity₅ := ((hlead₂.trans hlead₃).trans (hlead₄.trans hlead₅)).identities
                _ _ hidentity
              apply (hregister reference identity dataType b₅ hsound₅ hidentity₅ hdataType
                hsupported).bind
              intro _ b₆ hsound₆ hlead₆ hregistered
              apply keeps_pure hsound₆
              have hkey : identity.key = reference.key := hsound₅.identity_key _ _ hidentity₅
              obtain ⟨hreferences, hvariables⟩ :=
                closed_arguments fun type htype => (hanalyzed.2 type htype).mono hlead₆
              refine ⟨?_, hvariables⟩
              intro other hother
              cases List.mem_cons.mp hother with
              | inl heq =>
                  rw [heq]
                  unfold ResolvedReference
                  rw [hkey]
                  refine ⟨hlead₆.identities _ _ hidentity₅, hregistered, dataType, hdataType, ?_⟩
                  rw [hanalyzed.1]
                  exact hcount.symm
              | inr hmem => exact hreferences other hmem
        | none =>
            have hprimitive : ∀ builtinType, Keeps compilation fuel (do
                assertArgumentCount builtinType typeArguments 0 context
                pure (.primitive builtinType numericScale)) b
                  fun type b' => ClosedType compilation b' scope.values type := by
              intro builtinType
              apply (assertArgumentCount_keeps builtinType typeArguments 0 context hsound).bind
              intro _ b₁ hsound₁ _ _
              exact keeps_pure hsound₁ ⟨nofun, nofun⟩
            have hunary := buildUnaryArgument_keeps hregister builtinType typeArguments context scope b
              hsound
            cases builtinType with
            | unit | bool | int64 | date | timestamp | party | text => exact hprimitive _
            | numeric =>
                apply (assertArgumentCount_keeps .numeric typeArguments 0 context hsound).bind
                intro _ b₁ hsound₁ _ _
                split
                · exact keeps_pure hsound₁ ⟨nofun, nofun⟩
                · exact keeps_unsupported _ _
            | contractId =>
                apply (assertArgumentCount_keeps .contractId typeArguments 1 context hsound).bind
                intro _ b₁ hsound₁ _ _
                exact keeps_pure hsound₁ ⟨nofun, nofun⟩
            | optional => exact hunary.map fun _ _ h => ⟨h.references, h.bound⟩
            | list => exact hunary.map fun _ _ h => ⟨h.references, h.bound⟩
            | textMap => exact hunary.map fun _ _ h => ⟨h.references, h.bound⟩
            | genMap =>
                match typeArguments with
                | [key, value] =>
                    apply (buildOrThrow_keeps hregister key context scope b hsound).bind
                    intro analyzedKey b₁ hsound₁ _ hkey
                    apply (buildOrThrow_keeps hregister value context scope b₁ hsound₁).bind
                    intro analyzedValue b₂ hsound₂ hlead₂ hvalue
                    apply keeps_pure hsound₂
                    have hkey' := hkey.mono hlead₂
                    constructor
                    · intro reference hreference
                      cases List.mem_append.mp hreference with
                      | inl hmem => exact hkey'.references reference hmem
                      | inr hmem => exact hvalue.references reference hmem
                    · intro variable_ hvariable
                      cases List.mem_append.mp hvariable with
                      | inl hmem => exact hkey'.bound variable_ hmem
                      | inr hmem => exact hvalue.bound variable_ hmem
                | [] => exact keeps_unsupported _ _
                | [_] => exact keeps_unsupported _ _
                | _ :: _ :: _ :: _ => exact keeps_unsupported _ _
            | unknown => exact keeps_unsupported _ _

theorem buildUnaryArgument_keeps (hregister : RegistersWithin compilation fuel register)
    (builtinType : DamlLfBuiltinType) (typeArguments : List DamlLfType) (context : String) (scope : Scope)
    (b : Builder) (hsound : Sound compilation fuel b) :
    Keeps compilation fuel
      (buildUnaryArgument compilation register builtinType typeArguments context scope) b
      fun type b' => ClosedType compilation b' scope.values type := by
  match typeArguments with
  | [argument] => exact buildOrThrow_keeps hregister argument context scope b hsound
  | [] => exact keeps_unsupported _ _
  | _ :: _ :: _ => exact keeps_unsupported _ _

theorem buildArguments_keeps (hregister : RegistersWithin compilation fuel register)
    (typeArguments : List DamlLfType) (context : String) (scope : Scope) (b : Builder)
    (hsound : Sound compilation fuel b) :
    Keeps compilation fuel (buildArguments compilation register typeArguments context scope) b
      fun types b' => types.length = typeArguments.length ∧
        ∀ type ∈ types, ClosedType compilation b' scope.values type := by
  match typeArguments with
  | [] => exact keeps_pure hsound ⟨rfl, nofun⟩
  | argument :: rest =>
      rw [buildArguments]
      apply (buildOrThrow_keeps hregister argument context scope b hsound).bind
      intro first b₁ hsound₁ _ hfirst
      apply (buildArguments_keeps hregister rest context scope b₁ hsound₁).bind
      intro others b₂ hsound₂ hlead₂ hothers
      apply keeps_pure hsound₂
      refine ⟨?_, List.forall_mem_cons.mpr ⟨hfirst.mono hlead₂, hothers.2⟩⟩
      rw [List.length_cons, List.length_cons, hothers.1]

end

/-! ## Definitions -/

/-- The parameters in the scope of a definition are the parameters of the definition. -/
theorem mem_of_mem_scope {parameters : List DamlLfTypeParameter} {parameter : DamlLfTypeParameter}
    (h : parameter ∈ (createTypeParameterScope parameters).values) : parameter ∈ parameters := by
  obtain ⟨key, hget⟩ := KeyedMap.mem_values.mp h
  obtain ⟨other, hother, heq⟩ := List.mem_map.mp (KeyedMap.mem_of_get_ofEntries hget)
  cases heq
  exact hother

theorem buildRecordField_keeps (hregister : RegistersWithin compilation fuel register)
    (reference : TypeConReference) (parameters : List DamlLfTypeParameter) (field : DamlLfField)
    (hsound : Sound compilation fuel b) :
    Keeps compilation fuel (buildRecordField compilation register reference
      (createTypeParameterScope parameters) field) b
      fun result b' => ClosedType compilation b' parameters result.type := by
  apply (keeps_lift hsound fun _ => toCamelCase_error).bind
  intro propertyName b₁ hsound₁ _ _
  apply (buildOrThrow_keeps hregister field.type _ _ b₁ hsound₁).bind
  intro type b₂ hsound₂ _ htype
  exact keeps_pure hsound₂ (htype.weaken fun _ => mem_of_mem_scope)

theorem buildVariantConstructor_keeps (hregister : RegistersWithin compilation fuel register)
    (reference : TypeConReference) (parameters : List DamlLfTypeParameter)
    (constructor_ : DamlLfVariantConstructor) (hsound : Sound compilation fuel b) :
    Keeps compilation fuel (buildVariantConstructor compilation register reference
      (createTypeParameterScope parameters) constructor_) b
      fun result b' => ClosedType compilation b' parameters result.payload := by
  apply (buildOrThrow_keeps hregister constructor_.type _ _ b hsound).bind
  intro payload b₁ hsound₁ _ hpayload
  exact keeps_pure hsound₁ (hpayload.weaken fun _ => mem_of_mem_scope)

theorem buildNamedDefinition_keeps (hregister : RegistersWithin compilation fuel register)
    (reference identity : TypeConReference) {dataType : DamlLfDataType}
    (hsupported : Supported dataType) (hsound : Sound compilation fuel b) :
    Keeps compilation fuel (buildNamedDefinition compilation register reference identity dataType) b
      fun definition b' =>
        definition.identity = identity ∧
        definition.typeParameters.length = dataType.typeParameters.length ∧
        ∀ type ∈ definition.types, ClosedType compilation b' definition.typeParameters type := by
  unfold buildNamedDefinition
  dsimp only
  cases hdefinition : dataType.definition with
  | record fields =>
      have hfields : Keeps compilation fuel (fields.mapM (buildRecordField compilation register reference
          (createTypeParameterScope dataType.typeParameters))) b fun results b' =>
            List.Forall₂ (fun _ result =>
              ClosedType compilation b' dataType.typeParameters result.type) fields results :=
        keeps_mapM (fun _ _ _ _ hlead h => ClosedType.mono h hlead)
          (fun field _ _ hs => buildRecordField_keeps hregister reference _ field hs) hsound
      apply hfields.map
      intro results b' hresults
      refine ⟨rfl, rfl, ?_⟩
      intro type htype
      obtain ⟨field, hfield, rfl⟩ := List.mem_map.mp htype
      obtain ⟨_, _, hclosed⟩ := forall₂_right hresults field hfield
      exact hclosed
  | variant constructors =>
      have hconstructors : Keeps compilation fuel (constructors.mapM (buildVariantConstructor compilation
          register reference (createTypeParameterScope dataType.typeParameters))) b fun results b' =>
            List.Forall₂ (fun _ result =>
              ClosedType compilation b' dataType.typeParameters result.payload) constructors results :=
        keeps_mapM (fun _ _ _ _ hlead h => ClosedType.mono h hlead)
          (fun constructor_ _ _ hs => buildVariantConstructor_keeps hregister reference _ constructor_ hs)
          hsound
      apply hconstructors.map
      intro results b' hresults
      refine ⟨rfl, rfl, ?_⟩
      intro type htype
      obtain ⟨constructor_, hmem, rfl⟩ := List.mem_map.mp htype
      obtain ⟨_, _, hclosed⟩ := forall₂_right hresults constructor_ hmem
      exact hclosed
  | enum constructors =>
      apply keeps_pure hsound
      refine ⟨rfl, ?_, nofun⟩
      rw [hsupported constructors hdefinition]
      rfl

theorem has_iff_registered (hsound : Sound compilation fuel b) (key : String) :
    b.definitions.has key = true ↔ key ∈ b.definitionKeys := by
  rw [KeyedMap.has, decide_eq_true_iff, hsound.keys_eq]

/-- Registering a reference never runs out of fuel: a key that has not been met takes one unit, and the
table has room for it. -/
theorem registerNamedDefinition_keeps (compilation : DamlLfCompilation) (fuel : Nat) :
    RegistersWithin compilation fuel (registerNamedDefinition compilation fuel) := by
  induction fuel with
  | zero =>
      intro reference identity dataType b hsound _ hdataType _
      apply ends_bind
      apply ends_get
      split
      · rename_i hmet
        exact keeps_pure hsound ((has_iff_registered hsound _).mp hmet)
      · rename_i hmet
        have hfresh := mt (has_iff_registered hsound _).mpr hmet
        have hpos := hsound.fuel_pos hfresh (KeyedMap.mem_keys.mpr ⟨dataType, hdataType⟩)
        omega
  | succ fuel ih =>
      intro reference identity dataType b hsound hidentity hdataType hsupported
      apply ends_bind
      apply ends_get
      split
      · rename_i hmet
        exact keeps_pure hsound ((has_iff_registered hsound _).mp hmet)
      · rename_i hmet
        have hfresh := mt (has_iff_registered hsound _).mpr hmet
        have hreserved := hsound.reserve hfresh (KeyedMap.mem_keys.mpr ⟨dataType, hdataType⟩)
        apply ends_bind
        apply ends_modify
        apply Ends.bind (buildNamedDefinition_keeps ih reference identity hsupported hreserved)
        intro definition b' hb'
        obtain ⟨hsound', hlead, hdefinition, harity, htypes⟩ := hb'
        have hkey : reference.key ∈ b'.definitionKeys :=
          hlead.registered _ (List.mem_append_right _ List.mem_cons_self)
        have hclosed : ClosedDefinition compilation b' reference.key definition := by
          refine ⟨?_, ⟨dataType, hdataType, harity⟩, htypes⟩
          rw [hdefinition]
          exact hlead.identities _ _ hidentity
        apply ends_modify
        refine ⟨(hsound'.complete hkey hclosed).more_fuel, ?_, hkey⟩
        exact (leads_reserve _ b).trans (hlead.trans (leads_complete _ _ b'))

end Types

/-! ## The whole analysis -/

section Analysis

variable {compilation : DamlLfCompilation} {fuel : Nat} {b : Builder}

theorem buildClosedType_keeps (type : DamlLfType) (context : String) (hsound : Sound compilation fuel b) :
    Keeps compilation fuel (buildClosedType compilation fuel type context) b
      fun type b' => ClosedType compilation b' [] type :=
  buildOrThrow_keeps (registerNamedDefinition_keeps compilation fuel) type context .empty b hsound

theorem buildDefinition_keeps (reference : TypeConReference) (context : String)
    (hsound : Sound compilation fuel b) :
    Keeps compilation fuel (buildDefinition compilation fuel reference context) b
      fun _ b' => reference.key ∈ b'.definitionKeys := by
  apply (getCanonicalIdentity_keeps reference hsound).bind
  intro identity b₁ hsound₁ _ hidentity
  apply (getDataTypeOrThrow_keeps reference context hsound₁).bind
  intro dataType b₂ hsound₂ hlead₂ hdataType
  apply (assertSupportedDataTypeParameters_keeps dataType context hsound₂).bind
  intro _ b₃ hsound₃ hlead₃ hsupported
  exact registerNamedDefinition_keeps compilation fuel reference identity dataType b₃ hsound₃
    ((hlead₂.trans hlead₃).identities _ _ hidentity) hdataType hsupported

theorem analyzeTemplateField_keeps (field : DamlLfField) (hsound : Sound compilation fuel b) :
    Keeps compilation fuel (analyzeTemplateField compilation fuel field) b
      fun result b' => ClosedType compilation b' [] result.type := by
  apply (buildClosedType_keeps field.type _ hsound).bind
  intro type b₁ hsound₁ _ htype
  apply (keeps_lift hsound₁ fun _ => toCamelCase_error).bind
  intro propertyName b₂ hsound₂ hlead₂ _
  exact keeps_pure hsound₂ (htype.mono hlead₂)

theorem analyzeChoice_keeps (choice : DamlLfChoice) (hsound : Sound compilation fuel b) :
    Keeps compilation fuel (analyzeChoice compilation fuel choice) b fun result b' =>
      ClosedType compilation b' [] result.parameterType ∧
        ClosedType compilation b' [] result.returnType := by
  apply (buildClosedType_keeps choice.parameter.type _ hsound).bind
  intro parameterType b₁ hsound₁ _ hparameter
  apply (buildClosedType_keeps choice.returnType _ hsound₁).bind
  intro returnType b₂ hsound₂ hlead₂ hreturn
  apply (keeps_lift hsound₂ fun _ => toPascalCase_error).bind
  intro methodName b₃ hsound₃ hlead₃ _
  apply (keeps_lift hsound₃ fun _ => toCamelCase_error).bind
  intro parameterName b₄ hsound₄ hlead₄ _
  have hlead := hlead₃.trans hlead₄
  exact keeps_pure hsound₄ ⟨hparameter.mono (hlead₂.trans hlead), hreturn.mono hlead⟩

theorem analyzeTemplate_keeps (template : DamlLfTemplate) (hsound : Sound compilation fuel b) :
    Keeps compilation fuel (analyzeTemplate compilation fuel template) b fun result b' =>
      ∀ type ∈ result.types, ClosedType compilation b' [] type := by
  apply (keeps_lift hsound fun _ => toPascalCase_error).bind
  intro className b₁ hsound₁ _ _
  apply (keeps_lift hsound₁ fun _ => toKebabCase_error).bind
  intro fileName b₂ hsound₂ _ _
  have hfields : Keeps compilation fuel (template.fields.mapM (analyzeTemplateField compilation fuel)) b₂
      fun results b' => List.Forall₂ (fun _ result => ClosedType compilation b' [] result.type)
        template.fields results :=
    keeps_mapM (fun _ _ _ _ hlead h => ClosedType.mono h hlead)
      (fun field _ _ hs => analyzeTemplateField_keeps field hs) hsound₂
  apply hfields.bind
  intro createFields b₃ hsound₃ _ hcreate
  have hchoices : Keeps compilation fuel (template.choices.mapM (analyzeChoice compilation fuel)) b₃
      fun results b' => List.Forall₂ (fun _ result =>
        ClosedType compilation b' [] result.parameterType ∧
          ClosedType compilation b' [] result.returnType) template.choices results :=
    keeps_mapM (fun _ _ _ _ hlead h => ⟨h.1.mono hlead, h.2.mono hlead⟩)
      (fun choice _ _ hs => analyzeChoice_keeps choice hs) hsound₃
  apply hchoices.bind
  intro choices b₄ hsound₄ hlead₄ hchoices'
  apply keeps_pure hsound₄
  intro type htype
  cases List.mem_append.mp htype with
  | inl hmem =>
      obtain ⟨field, hfield, rfl⟩ := List.mem_map.mp hmem
      obtain ⟨_, _, hclosed⟩ := forall₂_right hcreate field hfield
      exact hclosed.mono hlead₄
  | inr hmem =>
      obtain ⟨choice, hchoice, hmem⟩ := List.mem_flatMap.mp hmem
      obtain ⟨_, _, hboth⟩ := forall₂_right hchoices' choice hchoice
      cases List.mem_cons.mp hmem with
      | inl heq => exact heq ▸ hboth.1
      | inr hmem => exact List.mem_singleton.mp hmem ▸ hboth.2

theorem getTypeDefinitions_ends (b : Builder) :
    Ends NotOutOfFuel getTypeDefinitions b fun definitions b' => b' = b ∧
      List.Forall₂ (fun key definition => b.definitions.get key = some (some definition))
        b.definitionKeys definitions := by
  apply ends_bind
  apply ends_get
  refine Ends.mono (@ends_mapM _ _ _ _ _ _ (fun s => s = b) (fun _ _ => True)
    (fun key definition _ => b.definitions.get key = some (some definition)) _ _ ?_ ?_ ?_ ?_ ?_) ?_
  · exact fun _ => trivial
  · exact fun _ _ _ _ _ => trivial
  · exact fun _ _ _ _ _ h => h
  · intro key _ s hs
    split
    · rename_i definition hget
      exact ends_pure ⟨hs, trivial, hget⟩
    · apply ends_throw
      intro h
      cases h
  · rfl
  · intro definitions b' h
    exact ⟨h.1, h.2.2⟩

/-- What a run of the analysis leaves: a sound table, one definition for each of its keys in order, and
types that the table closes. -/
structure Finished (compilation : DamlLfCompilation) (b : Builder)
    (result : DamlInterfaceAnalysisResult) : Prop where
  sound : ∃ fuel, Sound compilation fuel b
  definitions : List.Forall₂ (fun key definition => b.definitions.get key = some (some definition))
    b.definitionKeys result.typeDefinitions
  templates : ∀ template ∈ result.templates, ∀ type ∈ template.types, ClosedType compilation b [] type
  serializable : ∀ entry ∈ compilation.getDataTypes, entry.definition.serializable = true →
    entry.reference.key ∈ b.definitionKeys

theorem analyze_ends (hsound : Sound compilation fuel b) :
    Ends NotOutOfFuel (analyze compilation fuel) b fun result b' => Finished compilation b' result := by
  have htemplates : Keeps compilation fuel
      (compilation.getTemplates.mapM (analyzeTemplate compilation fuel)) b fun results b' =>
        List.Forall₂ (fun _ result => ∀ type ∈ result.types, ClosedType compilation b' [] type)
          compilation.getTemplates results :=
    keeps_mapM (fun _ _ _ _ hlead h type htype => (h type htype).mono hlead)
      (fun template _ _ hs => analyzeTemplate_keeps template hs) hsound
  apply Ends.bind htemplates
  intro templates b₁ h₁
  obtain ⟨hsound₁, _, hclosed⟩ := h₁
  have hdefinitions : Keeps compilation fuel
      ((compilation.getDataTypes.filter fun entry => entry.definition.serializable).mapM fun entry =>
        buildDefinition compilation fuel entry.reference ("data type '" ++ entry.reference.name ++ "'")) b₁
      fun results b' => List.Forall₂ (fun entry (_ : Unit) => entry.reference.key ∈ b'.definitionKeys)
        (compilation.getDataTypes.filter fun entry => entry.definition.serializable) results :=
    keeps_mapM (fun _ _ _ _ hlead h => hlead.registered _ h)
      (fun entry _ _ hs => buildDefinition_keeps entry.reference _ hs) hsound₁
  apply Ends.bind hdefinitions
  intro registered b₂ h₂
  obtain ⟨hsound₂, hlead₂, hregistered⟩ := h₂
  apply (getTypeDefinitions_ends b₂).bind
  intro definitions b₃ h₃
  obtain ⟨rfl, hfinished⟩ := h₃
  apply ends_pure
  refine ⟨⟨fuel, hsound₂⟩, hfinished, ?_, ?_⟩
  · intro template htemplate type htype
    obtain ⟨_, _, hall⟩ := forall₂_right hclosed template htemplate
    exact (hall type htype).mono hlead₂
  · intro entry hentry hserializable
    obtain ⟨_, _, hkey⟩ :=
      forall₂_left hregistered entry (List.mem_filter.mpr ⟨hentry, hserializable⟩)
    exact hkey

namespace Finished

variable {result : DamlInterfaceAnalysisResult}

theorem closed_definition (h : Finished compilation b result) {key : String}
    {definition : AnalyzedDamlTypeDefinition} (hget : b.definitions.get key = some (some definition)) :
    ClosedDefinition compilation b key definition := by
  obtain ⟨_, hsound⟩ := h.sound
  exact hsound.closed key definition hget

/-- A definition stands under the key of its identity. -/
theorem identity_key (h : Finished compilation b result) {key : String}
    {definition : AnalyzedDamlTypeDefinition} (hget : b.definitions.get key = some (some definition)) :
    definition.identity.key = key := by
  obtain ⟨_, hsound⟩ := h.sound
  exact hsound.identity_key key _ (h.closed_definition hget).canonical

/-- The definitions stand in the order in which their keys were met. -/
theorem definition_keys (h : Finished compilation b result) :
    result.typeDefinitions.map (fun definition => definition.identity.key) = b.definitionKeys := by
  have hkeys : List.Forall₂ (fun key definition => key = definition.identity.key)
      b.definitionKeys result.typeDefinitions :=
    h.definitions.imp fun _ _ hget => (h.identity_key hget).symm
  rw [← List.forall₂_map_right_iff, List.forall₂_eq_eq_eq] at hkeys
  exact hkeys.symm

theorem keys_nodup (h : Finished compilation b result) :
    (result.typeDefinitions.map fun definition => definition.identity.key).Nodup := by
  obtain ⟨_, hsound⟩ := h.sound
  rw [h.definition_keys]
  exact hsound.keys_nodup

theorem listed_once (h : Finished compilation b result) :
    (result.typeDefinitions.map AnalyzedDamlTypeDefinition.identity).Nodup := by
  have hkeys := h.keys_nodup
  have hmap : result.typeDefinitions.map (fun definition => definition.identity.key)
      = (result.typeDefinitions.map AnalyzedDamlTypeDefinition.identity).map TypeConReference.key := by
    rw [List.map_map]
    rfl
  rw [hmap] at hkeys
  exact List.Nodup.of_map _ hkeys

theorem resolves (h : Finished compilation b result) {reference : TypeConReference × Nat}
    (href : ResolvedReference compilation b reference) : result.Resolves reference := by
  obtain ⟨hcanonical, hkey, dataType, hdataType, hcount⟩ := href
  obtain ⟨definition, hdefinition, hget⟩ := forall₂_left h.definitions _ hkey
  have hclosed := h.closed_definition hget
  have hidentity : definition.identity = reference.1 := by
    have hsame := hclosed.canonical
    rw [hcanonical] at hsame
    exact (Option.some.inj hsame).symm
  obtain ⟨dataType', hdataType', harity⟩ := hclosed.arity
  obtain rfl := Option.some.inj (hdataType.symm.trans hdataType')
  refine ⟨definition, ?_, harity.trans hcount⟩
  rw [← hidentity]
  exact KeyedMap.filter_eq_singleton h.listed_once hdefinition

theorem closed (h : Finished compilation b result) : result.Closed where
  templates_resolve template htemplate type htype reference href :=
    h.resolves ((h.templates template htemplate type htype).references reference href)
  definitions_resolve definition hdefinition type htype reference href := by
    obtain ⟨_, _, hget⟩ := forall₂_right h.definitions definition hdefinition
    exact h.resolves (((h.closed_definition hget).types type htype).references reference href)
  variables_bound definition hdefinition type htype := by
    obtain ⟨_, _, hget⟩ := forall₂_right h.definitions definition hdefinition
    exact ((h.closed_definition hget).types type htype).bound
  no_variables_outside template htemplate type htype := by
    rw [List.eq_nil_iff_forall_not_mem]
    intro variable_ hvariable
    obtain ⟨_, hnone, _⟩ := (h.templates template htemplate type htype).bound variable_ hvariable
    cases hnone
  listed_once := h.listed_once

/-- Every serializable type of the compilation has one definition. -/
theorem serializable_listed (h : Finished compilation b result) {entry : DamlLfDataTypeEntry}
    (hentry : entry ∈ compilation.getDataTypes) (hserializable : entry.definition.serializable = true) :
    ∃ definition, result.typeDefinitions.filter
      (fun d => decide (d.identity.key = entry.reference.key)) = [definition] := by
  obtain ⟨definition, hdefinition, hget⟩ :=
    forall₂_left h.definitions _ (h.serializable entry hentry hserializable)
  refine ⟨definition, ?_⟩
  rw [← h.identity_key hget]
  exact KeyedMap.filter_eq_singleton h.keys_nodup hdefinition

end Finished

/-- The analysis ends within one unit of fuel for each type of the compilation, whatever the types refer
to, and what it returns is closed and lists every serializable type once. -/
theorem analysis_closed (compilation : DamlLfCompilation) :
    analyzeOrThrow compilation ≠ .error .outOfFuel ∧
      ∀ result, analyzeOrThrow compilation = .ok result → result.Closed ∧
        ∀ entry ∈ compilation.getDataTypes, entry.definition.serializable = true →
          ∃ definition, result.typeDefinitions.filter
            (fun d => decide (d.identity.key = entry.reference.key)) = [definition] := by
  have hends := analyze_ends (Sound.empty compilation)
  have hrun : analyzeOrThrow compilation
      = (analyze compilation compilation.typeSymbols.keys.length Builder.empty).map Prod.fst := rfl
  rw [hrun]
  constructor
  · intro herror
    cases hanalyze : analyze compilation compilation.typeSymbols.keys.length Builder.empty with
    | error error =>
        rw [hanalyze] at herror
        exact hends.of_error hanalyze (Except.error.inj herror)
    | ok pair =>
        rw [hanalyze] at herror
        cases herror
  · intro result hok
    cases hanalyze : analyze compilation compilation.typeSymbols.keys.length Builder.empty with
    | error error =>
        rw [hanalyze] at hok
        cases hok
    | ok pair =>
        rw [hanalyze] at hok
        obtain rfl := Except.ok.inj hok
        have hfinished : Finished compilation pair.2 pair.1 := hends.of_ok hanalyze
        exact ⟨hfinished.closed, fun entry => hfinished.serializable_listed⟩

end Analysis

/-- Two types that refer to each other, one of them generic and applied to ever larger arguments. -/
def recursiveCompilation : DamlLfCompilation :=
  let parameter : DamlLfType := { typeVariable := some ⟨some "a", 0⟩ }
  let applied (argument : DamlLfType) : DamlLfType :=
    { typeConReference := some ⟨"p", "M", "T"⟩, typeArguments := [argument] }
  let tree : DamlLfDataType := {
    name := "T"
    typeParameters := [⟨some "a", 0, .star⟩]
    definition := .record [
      ⟨"x", parameter⟩,
      ⟨"y", applied { builtinType := .list, typeArguments := [parameter] }⟩,
      ⟨"z", { typeConReference := some ⟨"p", "M", "U"⟩ }⟩] }
  let user : DamlLfDataType := {
    name := "U"
    definition := .variant [⟨"V", applied { builtinType := .int64 }⟩] }
  ⟨[⟨"p", "n", "v", [⟨"M", [.dataType tree, .dataType user]⟩]⟩]⟩

set_option maxRecDepth 4000 in
/-- The analysis accepts them. -/
theorem analysis_closed_recursive :
    ∃ result, analyzeOrThrow recursiveCompilation = .ok result ∧ result.Closed := by
  have hsome : (analyzeOrThrow recursiveCompilation).toOption.isSome = true := by decide +kernel
  obtain ⟨result, hresult⟩ := Option.isSome_iff_exists.mp hsome
  have hok := toOption_eq_some_iff.mp hresult
  exact ⟨result, hok, ((analysis_closed recursiveCompilation).2 result hok).1⟩

end CantonSdk.DamlInterface
