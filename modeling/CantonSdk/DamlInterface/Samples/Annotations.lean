import CantonSdk.Base.Related
import CantonSdk.DamlInterface.Samples.Scoping

/-!
# Sample annotations

The annotation of a named type is written in the scope of its definition, not in the scope of the reference. It is right
where each variable in the arguments means a type of the same name in both.
-/

set_option linter.all false

namespace CantonSdk.DamlInterface.Samples

open CantonSdk.Base CantonSdk.DamlLf CantonSdk.DamlValues

section Names

variable (context : SampleContext)

mutual

/-- The variables in a type that show in its name, each with the scope of the definitions entered around it. -/
def occurrences (bindings : Bindings) : AnalyzedType → List (Bindings × VariableKey)
  | .typeVariable name internedStringIndex => [(bindings, (name, internedStringIndex))]
  | .optional element => occurrences bindings element
  | .list element => occurrences bindings element
  | .textMap value => occurrences bindings value
  | .genMap key value => occurrences bindings key ++ occurrences bindings value
  | .namedReference identity typeArguments =>
      match exportedType context identity with
      | none => []
      | some _ => occurrencesIn (enteredScope context identity typeArguments bindings) typeArguments
  | .primitive _ _ | .contractId | .record _ | .variant _ | .enum _ => []

def occurrencesIn (bindings : Bindings) : List AnalyzedType → List (Bindings × VariableKey)
  | [] => []
  | type :: rest => occurrences bindings type ++ occurrencesIn bindings rest

end

/-! ## Annotations -/

mutual

/-- The annotated samples in an expression. -/
def wrappedIn : Expression → List Wrapped
  | .undefined | .null | .boolean _ | .number _ | .bigint _ | .string _ | .emptyObject => []
  | .object properties => wrappedInProperties properties
  | .quoted _ value => wrappedIn value
  | .array elements => wrappedInElements elements
  | .newMap entries => wrappedInEntries entries
  | .construct _ constructorArguments => wrappedInElements constructorArguments
  | .satisfies structural wrapped => wrapped :: wrappedIn structural

def wrappedInProperties : List (String × Expression) → List Wrapped
  | [] => []
  | (_, value) :: rest => wrappedIn value ++ wrappedInProperties rest

def wrappedInElements : List Expression → List Wrapped
  | [] => []
  | element :: rest => wrappedIn element ++ wrappedInElements rest

def wrappedInEntries : List (Expression × Expression) → List Wrapped
  | [] => []
  | (key, value) :: rest => wrappedIn key ++ wrappedIn value ++ wrappedInEntries rest

end

/-- The annotation names the type of the reference, with the variables in its arguments replaced. -/
def AnnotationRight (wrapped : Wrapped) : Prop :=
  ∃ file exportedName, exportedType context wrapped.identity = some (file, exportedName) ∧
    wrapped.annotation = .applied file exportedName
      (wrapped.typeArguments.map fun argument => nameOf context (resolveTypeVariables wrapped.scope argument))

/-- Where the annotation is written, each variable in the arguments stands for a type of the same name as in the scope of
the reference. -/
def CaptureFree (wrapped : Wrapped) : Prop :=
  ∀ occurrence ∈ occurrencesIn context (enteredScope context wrapped.identity wrapped.typeArguments wrapped.scope)
      wrapped.typeArguments,
    variableName context occurrence.1 occurrence.2 = variableName context wrapped.scope occurrence.2

end Names

/-! ## When a name is right -/

section RightNames

variable {context : SampleContext} {bindings scope : Bindings} {type : AnalyzedType}

theorem occurrencesIn_eq (typeArguments : List AnalyzedType) :
    occurrencesIn context bindings typeArguments = typeArguments.flatMap (occurrences context bindings) := by
  induction typeArguments with
  | nil => rfl
  | cons argument rest ih => rw [occurrencesIn, ih, List.flatMap_cons]

/-- The name in a scope is that of the resolved type where the variables have the same names. -/
theorem nameIn_eq_iff :
    nameIn context bindings type = nameOf context (resolveTypeVariables scope type)
      ↔ ∀ occurrence ∈ occurrences context bindings type,
        variableName context occurrence.1 occurrence.2 = variableName context scope occurrence.2 := by
  induction type using AnalyzedType.rec_children generalizing bindings with
  | h type ih =>
      cases type with
      | typeVariable name internedStringIndex =>
          have hname : nameOf context (resolveTypeVariables scope (.typeVariable name internedStringIndex))
              = variableName context scope (name, internedStringIndex) := by
            rw [resolveTypeVariables, variableName]
            cases scope.get (name, internedStringIndex) <;> rfl
          rw [hname, nameIn, occurrences, List.forall_mem_singleton]
      | optional element | list element | textMap element =>
          rw [nameIn, resolveTypeVariables, nameOf, occurrences, ← ih element List.mem_cons_self]
          simp only [TypeName.optional.injEq, TypeName.list.injEq, TypeName.textMap.injEq]
      | genMap key value =>
          rw [nameIn, resolveTypeVariables, nameOf, occurrences, TypeName.genMap.injEq, List.forall_mem_append,
            ← ih key List.mem_cons_self, ← ih value (List.mem_cons_of_mem _ List.mem_cons_self)]
      | namedReference identity typeArguments =>
          rw [nameIn, resolveTypeVariables, nameOf, occurrences]
          cases exportedType context identity with
          | none => simp
          | some exported =>
              dsimp only
              rw [namesIn_eq, namesOf_eq, resolveArguments_eq, List.map_map, occurrencesIn_eq]
              simp only [TypeName.applied.injEq, true_and, List.map_inj_left, List.forall_mem_flatMap, Function.comp_apply]
              exact forall₂_congr fun argument hargument => ih argument hargument
      | _ => simp [nameIn, resolveTypeVariables, nameOf, occurrences]

end RightNames

/-! ## The emitted annotations -/

section EmittedAnnotations

variable {context : SampleContext}

/-- What is known of an annotated sample when it is emitted. -/
structure EmittedSoundly (context : SampleContext) (wrapped : Wrapped) : Prop where
  closed : ClosedBindings context.definitionIndex wrapped.scope
  inScope : InScope context.definitionIndex (Bound wrapped.scope) (.namedReference wrapped.identity wrapped.typeArguments)
  annotation : ∃ file exportedName, exportedType context wrapped.identity = some (file, exportedName) ∧
    wrapped.annotation = .applied file exportedName (wrapped.typeArguments.map
      (nameIn context (enteredScope context wrapped.identity wrapped.typeArguments wrapped.scope)))

theorem EmittedSoundly.right_iff {wrapped : Wrapped} (h : EmittedSoundly context wrapped) :
    AnnotationRight context wrapped ↔ CaptureFree context wrapped := by
  obtain ⟨file, exportedName, hexported, hannotation⟩ := h.annotation
  have hright : AnnotationRight context wrapped ↔ ∀ argument ∈ wrapped.typeArguments,
      nameIn context (enteredScope context wrapped.identity wrapped.typeArguments wrapped.scope) argument
        = nameOf context (resolveTypeVariables wrapped.scope argument) := by
    rw [AnnotationRight, hannotation]
    constructor
    · rintro ⟨_, _, hsame, happlied⟩
      exact List.map_inj_left.mp (TypeName.applied.inj happlied).2.2
    · intro hnames
      exact ⟨file, exportedName, hexported, by rw [List.map_congr_left hnames]⟩
  rw [hright, CaptureFree, occurrencesIn_eq, List.forall_mem_flatMap]
  exact forall₂_congr fun _ _ => nameIn_eq_iff

/-- Every annotated sample in the expression is emitted soundly. -/
def SoundExpression (context : SampleContext) (expression : Expression) : Prop :=
  ∀ wrapped ∈ wrappedIn expression, EmittedSoundly context wrapped

theorem mem_wrappedInProperties {wrapped : Wrapped} {properties : List (String × Expression)} :
    wrapped ∈ wrappedInProperties properties ↔ ∃ property ∈ properties, wrapped ∈ wrappedIn property.2 := by
  induction properties with
  | nil => simp [wrappedInProperties]
  | cons property rest ih => simp only [wrappedInProperties, List.mem_append, ih, List.mem_cons, exists_eq_or_imp]

theorem sound_object {properties : List (String × Expression)}
    (h : ∀ property ∈ properties, SoundExpression context property.2) : SoundExpression context (.object properties) := by
  intro wrapped hwrapped
  obtain ⟨property, hproperty, hmem⟩ := mem_wrappedInProperties.mp hwrapped
  exact h property hproperty wrapped hmem

theorem sound_taggedObject {constructorName : String} {payload : Expression} (h : SoundExpression context payload) :
    SoundExpression context (taggedObject constructorName payload) := by
  refine sound_object fun property hproperty => ?_
  rcases List.mem_cons.mp hproperty with rfl | hrest
  · exact fun _ hwrapped => absurd hwrapped List.not_mem_nil
  · rw [List.mem_singleton.mp hrest]
    exact h

theorem sound_primitive {builtinType : DamlPrimitiveType} {numericScale : Option Nat} {representation : Representation} :
    SoundExpression context (emitPrimitive builtinType numericScale representation) := by
  intro wrapped hwrapped
  cases representation <;> cases builtinType <;>
    simp [emitPrimitive, wrappedIn, wrappedInElements] at hwrapped

theorem collectProperties_sound {emitField : RecordField AnalyzedType → Emitted (Option Expression)}
    {fields : List (String × RecordField AnalyzedType)} {properties : List (String × Expression)}
    (hfields : ∀ field ∈ fields, ∀ value, emitField field.2 = .ok (some value) → SoundExpression context value)
    (h : collectProperties emitField fields = .ok (some properties)) :
    ∀ property ∈ properties, SoundExpression context property.2 := by
  induction fields generalizing properties with
  | nil =>
      cases h
      exact fun _ hmem => absurd hmem List.not_mem_nil
  | cons field rest ih =>
      rw [collectProperties] at h
      obtain ⟨value, hvalue, h⟩ := bind_eq_ok.mp h
      cases value with
      | none => cases h
      | some value =>
          obtain ⟨others, hothers, h⟩ := bind_eq_ok.mp h
          cases others with
          | none => cases h
          | some others =>
              cases h
              refine List.forall_mem_cons.mpr ⟨hfields field List.mem_cons_self value hvalue, ?_⟩
              exact ih (fun other hother => hfields other (List.mem_cons_of_mem _ hother)) hothers

theorem collectObject_sound {emitField : RecordField AnalyzedType → Emitted (Option Expression)}
    {fields : List (String × RecordField AnalyzedType)} {expression : Expression}
    (hfields : ∀ field ∈ fields, ∀ value, emitField field.2 = .ok (some value) → SoundExpression context value)
    (h : collectObject emitField fields = .ok (some expression)) : SoundExpression context expression := by
  obtain ⟨properties, hproperties, h⟩ := bind_eq_ok.mp h
  cases properties with
  | none => cases h
  | some properties =>
      cases h
      exact sound_object (collectProperties_sound hfields hproperties)

theorem firstConstructor_sound {emitPayload : VariantConstructor AnalyzedType → Emitted (Option Expression)}
    {constructors : List (VariantConstructor AnalyzedType)} {expression : Expression}
    (hpayloads : ∀ constructor_ ∈ constructors, ∀ value, emitPayload constructor_ = .ok (some value) →
      SoundExpression context value)
    (h : firstConstructor emitPayload constructors = .ok (some expression)) : SoundExpression context expression := by
  induction constructors with
  | nil => cases h
  | cons constructor_ rest ih =>
      rw [firstConstructor] at h
      obtain ⟨payload, hpayload, h⟩ := bind_eq_ok.mp h
      cases payload with
      | none => exact ih (fun other hother => hpayloads other (List.mem_cons_of_mem _ hother)) h
      | some payload =>
          cases h
          exact sound_taggedObject (hpayloads constructor_ List.mem_cons_self payload hpayload)

theorem mem_fieldNames {representation : Representation} {fields : List (RecordField AnalyzedType)}
    {named : String × RecordField AnalyzedType} (h : named ∈ fieldNames representation fields) : named.2 ∈ fields := by
  obtain ⟨field, hfield, rfl⟩ := List.mem_map.mp h
  exact hfield

theorem mem_definitionFieldNames {representation : Representation} {definition : TypeDefinition}
    {fields : List (RecordField AnalyzedType)} {named : String × RecordField AnalyzedType}
    (h : named ∈ definitionFieldNames context representation definition fields) : named.2 ∈ fields := by
  obtain ⟨⟨field, index⟩, hfield, rfl⟩ := List.mem_map.mp h
  exact (List.mem_zipIdx' hfield).2 ▸ List.getElem_mem _

theorem sound_annotated {identity : TypeConReference} {typeArguments : List AnalyzedType} {state : SampleState}
    {structural : Expression} (h : WellScoped context (.namedReference identity typeArguments) state.bindings)
    (hstructural : SoundExpression context structural) :
    SoundExpression context (annotated context identity typeArguments state structural) := by
  rw [annotated]
  cases state.representation with
  | ledger => exact hstructural
  | typeScript =>
      cases hexported : exportedType context identity with
      | none => exact hstructural
      | some exported =>
          exact List.forall_mem_cons.mpr ⟨⟨h.closed, h.inScope, exported.1, exported.2, hexported, rfl⟩, hstructural⟩

/-! ### The runs -/

section Runs

variable {type : AnalyzedType} {state : SampleState} {expression : Expression} {fuel : Nat}
  (hindex : ClosedIndex context.definitionIndex)

theorem sound_of_empty (h : wrappedIn expression = []) : SoundExpression context expression := by
  intro wrapped hwrapped
  rw [h] at hwrapped
  cases hwrapped

theorem emitFiniteDefinition_sound {emitType : AnalyzedType → SampleState → Emitted (Option Expression)}
    {definition : TypeDefinition}
    (hchildren : ∀ child ∈ definition.shape.children, ∀ inner : SampleState, inner.bindings = state.bindings →
      ∀ value, emitType child inner = .ok (some value) → SoundExpression context value)
    (hshape : ∀ value, emitType definition.shape state = .ok (some value) → SoundExpression context value)
    (h : emitFiniteDefinition context emitType definition state = .ok (some expression)) :
    SoundExpression context expression := by
  cases definition with
  | record identity typeParameters fields =>
      refine collectObject_sound (fun field hfield value hvalue => ?_) h
      exact hchildren field.2.type (List.mem_map_of_mem (mem_definitionFieldNames hfield)) (state.descend _) rfl value hvalue
  | variant identity typeParameters constructors => exact hshape expression h
  | enum identity constructors => exact hshape expression h

include hindex in
theorem emitFinite_sound {visitedReferences : List String} (hscope : WellScoped context type state.bindings)
    (h : emitFinite context fuel type state visitedReferences = .ok (some expression)) :
    SoundExpression context expression := by
  induction fuel generalizing type state visitedReferences expression with
  | zero => cases h
  | succ fuel ih =>
      cases type with
      | primitive builtinType numericScale =>
          cases h
          exact sound_primitive
      | contractId | list element =>
          cases h
          exact sound_of_empty rfl
      | optional element | textMap element | genMap key element =>
          cases h
          cases state.representation <;> exact sound_of_empty rfl
      | record fields =>
          refine collectObject_sound (fun field hfield value hvalue => ?_) h
          exact @ih _ (state.descend _) _ _ (hscope.child (List.mem_map_of_mem (mem_fieldNames hfield))) hvalue
      | variant constructors =>
          refine firstConstructor_sound (fun constructor_ hconstructor value hvalue => ?_) h
          exact @ih _ (state.descend _) _ _ (hscope.child (List.mem_map_of_mem hconstructor)) hvalue
      | enum constructors =>
          cases constructors with
          | nil => cases h
          | cons first rest =>
              cases h
              exact sound_of_empty rfl
      | typeVariable name internedStringIndex =>
          obtain ⟨binding, hbinding, -⟩ := hscope.variable
          rw [emitFinite, hbinding] at h
          exact ih (hscope.binding hbinding) h
      | namedReference identity typeArguments =>
          obtain ⟨definition, hdefinition, hchildren⟩ := hscope.enter hindex
          rw [emitFinite_reference hscope hdefinition] at h
          split_ifs at h
          · cases h
          · obtain ⟨structural, hstructural, h⟩ := bind_eq_ok.mp h
            cases structural with
            | none => cases h
            | some structural =>
                cases h
                refine sound_annotated hscope (emitFiniteDefinition_sound ?_ ?_ hstructural)
                · exact fun child hchild inner hinner value => ih (hinner ▸ hchildren child hchild)
                · exact fun value => ih (WellScoped.shape (closed_enteredScope hscope.closed (inScope_arguments hscope.inScope))
                    hchildren)

theorem emitProperties_sound {emitField : RecordField AnalyzedType → Emitted Expression}
    {fields : List (String × RecordField AnalyzedType)}
    (hfields : ∀ field ∈ fields, ∀ value, emitField field.2 = .ok value → SoundExpression context value)
    (h : emitProperties emitField fields = .ok expression) : SoundExpression context expression := by
  obtain ⟨properties, hproperties, h⟩ := bind_eq_ok.mp h
  cases h
  refine sound_object fun property hproperty => ?_
  obtain ⟨⟨name, field⟩, hfield, hnamed⟩ := forall₂_right (mapM_eq_ok.mp hproperties) property hproperty
  obtain ⟨value, hvalue, h⟩ := bind_eq_ok.mp hnamed
  cases h
  exact hfields (name, field) hfield value hvalue

theorem emitVariant_sound {emitPayload : VariantConstructor AnalyzedType → Emitted Expression} {path : List String}
    {constructors : List (VariantConstructor AnalyzedType)}
    (hpayloads : ∀ constructor_ ∈ constructors, ∀ value, emitPayload constructor_ = .ok value →
      SoundExpression context value)
    (h : emitVariant emitPayload path constructors = .ok expression) : SoundExpression context expression := by
  cases constructors with
  | nil => cases h
  | cons first rest =>
      obtain ⟨payload, hpayload, h⟩ := bind_eq_ok.mp h
      cases h
      exact sound_taggedObject (hpayloads first List.mem_cons_self payload hpayload)

theorem sound_emitEnum {constructors : List String} : SoundExpression context (emitEnum constructors) := by
  cases constructors <;> exact sound_of_empty rfl

theorem emitDefinition_sound {emitType : AnalyzedType → SampleState → Emitted Expression} {definition : TypeDefinition}
    (hchildren : ∀ child ∈ definition.shape.children, ∀ inner : SampleState, inner.bindings = state.bindings →
      ∀ value, emitType child inner = .ok value → SoundExpression context value)
    (h : emitDefinition context emitType definition state = .ok expression) : SoundExpression context expression := by
  cases definition with
  | record identity typeParameters fields =>
      rw [emitDefinition] at h
      refine emitProperties_sound (fun field hfield value hvalue => ?_) h
      exact hchildren field.2.type (List.mem_map_of_mem (mem_definitionFieldNames hfield)) (state.descend _) rfl value hvalue
  | variant identity typeParameters constructors =>
      rw [emitDefinition] at h
      refine emitVariant_sound (fun constructor_ hconstructor value hvalue => ?_) h
      exact hchildren constructor_.payload (List.mem_map_of_mem hconstructor) (state.descend _) rfl value hvalue
  | enum identity constructors =>
      cases h
      exact sound_emitEnum

include hindex in
theorem emitFiniteOrThrow_sound (hscope : WellScoped context type state.bindings)
    (h : emitFiniteOrThrow context fuel type state = .ok expression) : SoundExpression context expression := by
  obtain ⟨finite, hfinite, h⟩ := bind_eq_ok.mp h
  cases finite with
  | none => cases h
  | some finite =>
      cases h
      exact emitFinite_sound hindex hscope hfinite

include hindex in
theorem emit_sound (hscope : WellScoped context type state.bindings)
    (h : emit context fuel type state = .ok expression) : SoundExpression context expression := by
  induction fuel generalizing type state expression with
  | zero => cases h
  | succ fuel ih =>
      by_cases hdepth : state.depth ≤ 0
      · rw [emit_shallow hdepth] at h
        exact emitFiniteOrThrow_sound hindex hscope h
      have hdescend : ∀ {child value segment}, child ∈ type.children →
          emit context fuel child (state.descend segment) = .ok value → SoundExpression context value :=
        fun {child value segment} hchild hvalue => @ih child (state.descend segment) value (hscope.child hchild) hvalue
      cases type with
      | namedReference identity typeArguments =>
          obtain ⟨definition, hdefinition, hchildren⟩ := hscope.enter hindex
          rw [emit_reference hscope hdefinition] at h
          split_ifs at h
          · exact emitFiniteOrThrow_sound hindex hscope h
          · obtain ⟨structural, hstructural, h⟩ := bind_eq_ok.mp h
            cases h
            refine sound_annotated hscope (emitDefinition_sound ?_ hstructural)
            exact fun child hchild inner hinner value => ih (hinner ▸ hchildren child hchild)
      | typeVariable name internedStringIndex =>
          obtain ⟨binding, hbinding, -⟩ := hscope.variable
          rw [emit, if_neg hdepth, hbinding] at h
          exact ih (hscope.binding hbinding) h
      | primitive builtinType numericScale =>
          rw [emit, if_neg hdepth] at h
          cases h
          exact sound_primitive
      | contractId =>
          rw [emit, if_neg hdepth] at h
          cases h
          exact sound_of_empty rfl
      | optional element =>
          rw [emit, if_neg hdepth] at h
          cases h
          cases state.representation <;> exact sound_of_empty rfl
      | list element =>
          rw [emit, if_neg hdepth] at h
          obtain ⟨value, hvalue, h⟩ := bind_eq_ok.mp h
          cases h
          simpa [SoundExpression, wrappedIn, wrappedInElements] using hdescend List.mem_cons_self hvalue
      | textMap element =>
          rw [emit, if_neg hdepth] at h
          obtain ⟨value, hvalue, h⟩ := bind_eq_ok.mp h
          cases h
          cases state.representation <;>
            simpa [SoundExpression, emitTextMap, wrappedIn, wrappedInEntries] using hdescend List.mem_cons_self hvalue
      | genMap key element =>
          rw [emit, if_neg hdepth] at h
          obtain ⟨keyValue, hkey, h⟩ := bind_eq_ok.mp h
          obtain ⟨value, hvalue, h⟩ := bind_eq_ok.mp h
          cases h
          have hkey := hdescend List.mem_cons_self hkey
          have hvalue := hdescend (List.mem_cons_of_mem _ List.mem_cons_self) hvalue
          cases state.representation <;>
            simpa [SoundExpression, emitGenMap, wrappedIn, wrappedInEntries, wrappedInElements, or_imp, forall_and] using
              And.intro hkey hvalue
      | record fields =>
          rw [emit, if_neg hdepth] at h
          exact emitProperties_sound (fun field hfield value => hdescend (List.mem_map_of_mem (mem_fieldNames hfield))) h
      | variant constructors =>
          rw [emit, if_neg hdepth] at h
          exact emitVariant_sound (fun constructor_ hmem value => hdescend (List.mem_map_of_mem hmem)) h
      | enum constructors =>
          rw [emit, if_neg hdepth] at h
          cases h
          exact sound_emitEnum

end Runs

/-- For every closed analysis and every type in the scope of its bindings: each annotation in what is emitted is right if
and only if its scope gives the variables in the arguments of the reference the names that the scope of the reference
gives them. -/
theorem annotations_right_iff {type : AnalyzedType} {options : SampleOptions} {representation : Representation} {fuel : Nat}
    {expression : Expression} (hindex : ClosedIndex context.definitionIndex)
    (hscope : WellScoped context type options.typeVariableBindings)
    (h : emitOrThrow context fuel type options representation = .ok expression) :
    ∀ wrapped ∈ wrappedIn expression, (AnnotationRight context wrapped ↔ CaptureFree context wrapped) :=
  fun wrapped hwrapped =>
    (@emit_sound _ _ (options.state representation) _ _ hindex hscope h wrapped hwrapped).right_iff

end EmittedAnnotations

/-! ### A box in a box -/

def mainIdentity (name : String) : TypeConReference := ⟨"pkg", "Main", name⟩

def parameterA : DamlLfTypeParameter := ⟨some "a", 1, .star⟩

def variableA : AnalyzedType := .typeVariable (some "a") 1

/-- `data Box a = Box with content : a`. -/
def boxDefinition : TypeDefinition := .record (mainIdentity "Box") [parameterA] [⟨"content", "content", variableA⟩]

/-- `data Crate a = Crate with boxed : Box [a]`. -/
def crateDefinition : TypeDefinition :=
  .record (mainIdentity "Crate") [parameterA]
    [⟨"boxed", "boxed", .namedReference (mainIdentity "Box") [.list variableA]⟩]

def mainFile : NamedTypeFile where
  path := "main/types.ts"
  packageId := "pkg"
  moduleName := "Main"
  exportedTypeNamesByIdentity := .ofEntries [((mainIdentity "Box").key, "Box"), ((mainIdentity "Crate").key, "Crate")]
  fieldPropertyNames := .empty

def boxContext : SampleContext := ⟨[boxDefinition, crateDefinition], [mainFile]⟩

def crateOfIntegers : AnalyzedType := .namedReference (mainIdentity "Crate") [.primitive .int64 none]

/-- The annotation of the box has the list of the scope of `Box`, which is a list of lists. -/
theorem box_in_crate_misnamed :
    ¬ ∀ fuel expression, emitOrThrow boxContext fuel crateOfIntegers .default .typeScript = .ok expression →
      ∀ wrapped ∈ wrappedIn expression, AnnotationRight boxContext wrapped := by
  intro h
  have hright : AnnotationRight boxContext
      ⟨mainIdentity "Box", [.list variableA], enterParameters .empty [parameterA] [.primitive .int64 none] .empty,
        .applied "main/types.ts" "Box" [.list (.list (.keyword "bigint"))]⟩ :=
    h 5 _ rfl _ (List.mem_cons_of_mem _ List.mem_cons_self)
  obtain ⟨file, exportedName, -, hannotation⟩ := hright
  have hname : TypeName.list (.list (.keyword "bigint")) = .list (.keyword "bigint") :=
    (List.cons.inj (TypeName.applied.inj hannotation).2.2).1
  cases hname

theorem boxContext_closed : ClosedIndex boxContext.definitionIndex := closedIndex_of_entries _ (by decide +kernel)

theorem crateOfIntegers_scoped : WellScoped boxContext crateOfIntegers .empty :=
  ⟨⟨fun _ _ h => nomatch h⟩, ClosedType.inScope (show ClosedType _ _ by unfold ClosedType; decide +kernel)⟩

/-- A crate of integers has an annotated sample. -/
theorem annotations_right_iff_crate :
    ∃ expression, emitOrThrow boxContext 5 crateOfIntegers .default .typeScript = .ok expression ∧
      ∀ wrapped ∈ wrappedIn expression, (AnnotationRight boxContext wrapped ↔ CaptureFree boxContext wrapped) := by
  have h : emitOrThrow boxContext 5 crateOfIntegers .default .typeScript = .ok _ := rfl
  exact ⟨_, h, annotations_right_iff boxContext_closed crateOfIntegers_scoped h⟩

end CantonSdk.DamlInterface.Samples
