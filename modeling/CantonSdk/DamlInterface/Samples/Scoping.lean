import CantonSdk.DamlInterface.Samples.Emitter

/-!
# Emission in a scope

From a type in a closed scope the emitter comes to types in closed scopes only. There every reference is entered, and every
type that is named has a name, so that what the emitter does at a reference comes down to one equation.
-/

set_option linter.all false

namespace CantonSdk.DamlInterface.Samples

open CantonSdk.Base CantonSdk.DamlLf CantonSdk.DamlValues

section Names

variable (context : SampleContext)

/-! ## What a type is called -/

mutual

/-- The name of a type without variables. -/
def nameOf : AnalyzedType → TypeName
  | .primitive builtinType _ => primitiveTypeName builtinType
  | .contractId => .keyword "string"
  | .optional element => .optional (nameOf element)
  | .list element => .list (nameOf element)
  | .textMap value => .textMap (nameOf value)
  | .genMap key value => .genMap (nameOf key) (nameOf value)
  | .namedReference identity typeArguments =>
      match exportedType context identity with
      | none => .keyword "string"
      | some (file, exportedName) => .applied file exportedName (namesOf typeArguments)
  | .record _ | .variant _ | .enum _ | .typeVariable _ _ => .keyword "unknown"

def namesOf : List AnalyzedType → List TypeName
  | [] => []
  | type :: rest => nameOf type :: namesOf rest

end

/-- The scope of the definition that a reference names, entered from the scope of the reference. -/
def enteredScope (identity : TypeConReference) (typeArguments : List AnalyzedType) (bindings : Bindings) : Bindings :=
  match context.definitionIndex.get identity.key with
  | none => bindings
  | some definition => enterParameters bindings definition.typeParameters typeArguments bindings

/-- The name of what a variable stands for. -/
def variableName (bindings : Bindings) (key : VariableKey) : TypeName :=
  match bindings.get key with
  | none => .keyword "unknown"
  | some type => nameOf context type

mutual

/-- The name of a type, in a scope for its variables. -/
def nameIn (bindings : Bindings) : AnalyzedType → TypeName
  | .typeVariable name internedStringIndex => variableName context bindings (name, internedStringIndex)
  | .primitive builtinType _ => primitiveTypeName builtinType
  | .contractId => .keyword "string"
  | .optional element => .optional (nameIn bindings element)
  | .list element => .list (nameIn bindings element)
  | .textMap value => .textMap (nameIn bindings value)
  | .genMap key value => .genMap (nameIn bindings key) (nameIn bindings value)
  | .namedReference identity typeArguments =>
      match exportedType context identity with
      | none => .keyword "string"
      | some (file, exportedName) =>
          .applied file exportedName (namesIn (enteredScope context identity typeArguments bindings) typeArguments)
  | .record _ | .variant _ | .enum _ => .keyword "unknown"

def namesIn (bindings : Bindings) : List AnalyzedType → List TypeName
  | [] => []
  | type :: rest => nameIn bindings type :: namesIn bindings rest

end

end Names

/-! ## The emitted names -/

section EmittedNames

variable {context : SampleContext} {path : List String} {bound : AnalyzedType → Emitted TypeName} {bindings scope : Bindings}
  {type : AnalyzedType} {typeArguments : List AnalyzedType} {identity : TypeConReference}

theorem namesOf_eq (typeArguments : List AnalyzedType) : namesOf context typeArguments = typeArguments.map (nameOf context) := by
  induction typeArguments with
  | nil => rfl
  | cons argument rest ih => rw [namesOf, ih, List.map_cons]

theorem namesIn_eq (typeArguments : List AnalyzedType) :
    namesIn context bindings typeArguments = typeArguments.map (nameIn context bindings) := by
  induction typeArguments with
  | nil => rfl
  | cons argument rest ih => rw [namesIn, ih, List.map_cons]

theorem emitTypeNamesWith_eq (typeArguments : List AnalyzedType) :
    emitTypeNamesWith context path bound bindings typeArguments
      = typeArguments.mapM (emitTypeNameWith context path bound bindings) := by
  induction typeArguments with
  | nil => rfl
  | cons argument rest ih =>
      rw [emitTypeNamesWith, List.mapM_cons, ih]

theorem mapM_eq_map {α β : Type} {f : α → Emitted β} {g : α → β} {list : List α} (h : ∀ a ∈ list, f a = .ok (g a)) :
    list.mapM f = .ok (list.map g) := by
  rw [mapM_eq_ok, List.forall₂_map_right_iff, List.forall₂_same]
  exact h

theorem closed_enteredScope (hbindings : ClosedBindings context.definitionIndex bindings)
    (harguments : ∀ argument ∈ typeArguments, InScope context.definitionIndex (Bound bindings) argument) :
    ClosedBindings context.definitionIndex (enteredScope context identity typeArguments bindings) := by
  rw [enteredScope]
  cases context.definitionIndex.get identity.key with
  | none => exact hbindings
  | some definition => exact closed_enter hbindings hbindings harguments

theorem bound_enteredScope {key : VariableKey} (h : Bound bindings key) :
    Bound (enteredScope context identity typeArguments bindings) key := by
  rw [enteredScope]
  cases context.definitionIndex.get identity.key with
  | none => exact h
  | some definition => exact bound_enter_of_bound h

/-- A reference that resolves is entered. -/
theorem withDefinitionBindings_ok {boundKeys : VariableKey → Prop}
    (h : InScope context.definitionIndex boundKeys (.namedReference identity typeArguments)) :
    ∃ definition, context.definitionIndex.get identity.key = some definition ∧
      withDefinitionBindings definition typeArguments path bindings
        = .ok (enteredScope context identity typeArguments bindings) := by
  obtain ⟨definition, hdefinition, hlength⟩ := (inScope_iff.mp h).1
  refine ⟨definition, hdefinition, ?_⟩
  rw [enteredScope, hdefinition]
  exact if_pos hlength

theorem emitTypeNameWith_reference
    (h : InScope context.definitionIndex (Bound bindings) (.namedReference identity typeArguments)) :
    emitTypeNameWith context path bound bindings (.namedReference identity typeArguments)
      = match exportedType context identity with
        | none => .ok (.keyword "string")
        | some (file, exportedName) => do
            let names ← typeArguments.mapM
              (emitTypeNameWith context path bound (enteredScope context identity typeArguments bindings))
            return .applied file exportedName names := by
  obtain ⟨definition, hdefinition, hentered⟩ := withDefinitionBindings_ok h
  rw [emitTypeNameWith, hdefinition]
  dsimp only
  rw [hentered, ← emitTypeNamesWith_eq]
  cases exportedType context identity <;> rfl

theorem inScope_arguments {boundKeys : VariableKey → Prop}
    (h : InScope context.definitionIndex boundKeys (.namedReference identity typeArguments)) :
    ∀ argument ∈ typeArguments, InScope context.definitionIndex boundKeys argument :=
  fun _ hargument => h.child hargument

/-- What is emitted is the name in the scope, when the types that are bound are given their names. -/
theorem emitTypeNameWith_ok {keys : VariableKey → Prop}
    (hbound : ∀ key, keys key → ∀ type, ClosedType context.definitionIndex type → bound type = .ok (nameOf context type))
    (hclosed : ClosedBindings context.definitionIndex bindings) (hkeys : ∀ key, keys key → Bound bindings key)
    (h : InScope context.definitionIndex keys type) :
    emitTypeNameWith context path bound bindings type = .ok (nameIn context bindings type) := by
  induction type using AnalyzedType.rec_children generalizing bindings with
  | h type ih =>
      have hchild := fun child (hmem : child ∈ type.children) => ih child hmem hclosed hkeys (h.child hmem)
      cases type with
      | typeVariable name internedStringIndex =>
          have hkey : keys (name, internedStringIndex) := (inScope_iff.mp h).1
          obtain ⟨resolved, hresolved⟩ := hkeys _ hkey
          rw [emitTypeNameWith, nameIn, variableName, hresolved]
          exact hbound _ hkey resolved (hclosed.closed _ _ hresolved)
      | optional element | list element | textMap element =>
          rw [emitTypeNameWith, hchild element List.mem_cons_self]
          rfl
      | genMap key value =>
          rw [emitTypeNameWith, hchild key List.mem_cons_self, hchild value (List.mem_cons_of_mem _ List.mem_cons_self)]
          rfl
      | namedReference identity typeArguments =>
          have hbindings := h.mono hkeys
          rw [emitTypeNameWith_reference hbindings, nameIn]
          cases exportedType context identity with
          | none => rfl
          | some exported =>
              have hentered : ClosedBindings context.definitionIndex (enteredScope context identity typeArguments bindings) :=
                closed_enteredScope hclosed (inScope_arguments hbindings)
              have hnames := mapM_eq_map fun argument (hargument : argument ∈ typeArguments) =>
                ih argument hargument hentered (fun key hkey => bound_enteredScope (hkeys key hkey))
                  (inScope_arguments h argument hargument)
              dsimp only
              rw [hnames, namesIn_eq]
              rfl
      | _ => rfl

theorem nameIn_closed (h : ClosedType context.definitionIndex type) : nameIn context bindings type = nameOf context type := by
  induction type using AnalyzedType.rec_children generalizing bindings with
  | h type ih =>
      have hchild := fun child (hmem : child ∈ type.children) bindings => @ih child hmem bindings (h.child hmem)
      cases type with
      | typeVariable name internedStringIndex => exact absurd h not_closed_variable
      | optional element | list element | textMap element => rw [nameIn, nameOf, hchild element List.mem_cons_self]
      | genMap key value =>
          rw [nameIn, nameOf, hchild key List.mem_cons_self, hchild value (List.mem_cons_of_mem _ List.mem_cons_self)]
      | namedReference identity typeArguments =>
          have hnames := List.map_congr_left fun argument (hargument : argument ∈ typeArguments) =>
            hchild argument hargument (enteredScope context identity typeArguments bindings)
          rw [nameIn, nameOf, namesIn_eq, namesOf_eq, hnames]
      | _ => rfl

/-- In scope, `emitTypeName` gives the name. -/
theorem emitTypeName_ok (hclosed : ClosedBindings context.definitionIndex bindings)
    (h : InScope context.definitionIndex (Bound bindings) type) :
    emitTypeName context path bindings type = .ok (nameIn context bindings type) := by
  refine emitTypeNameWith_ok (fun _ _ type htype => ?_) hclosed (fun _ hkey => hkey) h
  rw [emitTypeNameWith_ok (fun _ hkey => hkey.elim) hclosed (fun _ hkey => hkey.elim) htype, nameIn_closed htype]

/-- The names of the arguments, in the scope of the definition. -/
theorem emitArgumentNames_ok (hclosed : ClosedBindings context.definitionIndex scope)
    (h : InScope context.definitionIndex (Bound scope) (.namedReference identity typeArguments)) :
    typeArguments.mapM (emitTypeName context path (enteredScope context identity typeArguments scope))
      = .ok (typeArguments.map (nameIn context (enteredScope context identity typeArguments scope))) := by
  have harguments := inScope_arguments h
  refine mapM_eq_map fun argument hargument => emitTypeName_ok (closed_enteredScope hclosed harguments) ?_
  exact (harguments argument hargument).mono fun _ => bound_enteredScope

end EmittedNames

/-! ## Well-scoped types -/

section Scoped

variable {context : SampleContext} {type : AnalyzedType} {bindings : Bindings}

/-- The scope of a state is closed, and the type is in it. -/
structure WellScoped (context : SampleContext) (type : AnalyzedType) (bindings : Bindings) : Prop where
  closed : ClosedBindings context.definitionIndex bindings
  inScope : InScope context.definitionIndex (Bound bindings) type

theorem WellScoped.child {bindings : Bindings} {child : AnalyzedType} (h : WellScoped context type bindings)
    (hchild : child ∈ type.children) : WellScoped context child bindings :=
  ⟨h.closed, h.inScope.child hchild⟩

/-- A variable is bound to a type that is in scope. -/
theorem WellScoped.variable {bindings : Bindings} {name : Option String} {internedStringIndex : Int}
    (h : WellScoped context (.typeVariable name internedStringIndex) bindings) :
    ∃ binding, bindings.get (name, internedStringIndex) = some binding ∧ ClosedType context.definitionIndex binding := by
  obtain ⟨binding, hbinding⟩ := (inScope_iff.mp h.inScope).1
  exact ⟨binding, hbinding, h.closed.closed _ _ hbinding⟩

theorem WellScoped.binding {bindings : Bindings} {key : VariableKey} {binding : AnalyzedType}
    (h : WellScoped context type bindings) (hbinding : bindings.get key = some binding) :
    WellScoped context binding bindings :=
  ⟨h.closed, (h.closed.closed key binding hbinding).inScope⟩

/-- A reference is entered in a scope in which its definition is. -/
theorem WellScoped.enter (hindex : ClosedIndex context.definitionIndex) {bindings : Bindings} {identity : TypeConReference}
    {typeArguments : List AnalyzedType} (h : WellScoped context (.namedReference identity typeArguments) bindings) :
    ∃ definition, context.definitionIndex.get identity.key = some definition ∧
      ∀ child ∈ definition.shape.children,
        WellScoped context child (enteredScope context identity typeArguments bindings) := by
  obtain ⟨definition, hdefinition, hlength⟩ := (inScope_iff.mp h.inScope).1
  refine ⟨definition, hdefinition, fun child hchild => ?_⟩
  refine ⟨closed_enteredScope h.closed (inScope_arguments h.inScope), ?_⟩
  rw [enteredScope, hdefinition]
  exact hindex.entered hdefinition hlength hchild

/-- The definition itself, as a type. -/
theorem WellScoped.shape {definition : TypeDefinition} {bindings : Bindings}
    (hclosed : ClosedBindings context.definitionIndex bindings)
    (h : ∀ child ∈ definition.shape.children, WellScoped context child bindings) :
    WellScoped context definition.shape bindings := by
  refine ⟨hclosed, inScope_iff.mpr ⟨?_, fun child hchild => (h child hchild).inScope⟩⟩
  cases definition <;> exact trivial

/-! ### References -/

variable {identity : TypeConReference} {typeArguments : List AnalyzedType} {state : SampleState}

/-- A sample of a definition, with its annotation. -/
def annotated (context : SampleContext) (identity : TypeConReference) (typeArguments : List AnalyzedType)
    (state : SampleState) (structural : Expression) : Expression :=
  match state.representation, exportedType context identity with
  | .typeScript, some (file, exportedName) =>
      .satisfies structural ⟨identity, typeArguments, state.bindings, .applied file exportedName (typeArguments.map
        (nameIn context (enteredScope context identity typeArguments state.bindings)))⟩
  | _, _ => structural

theorem annotateSample_ok {structural : Expression} {namedState : SampleState}
    (h : WellScoped context (.namedReference identity typeArguments) state.bindings)
    (hbindings : namedState.bindings = enteredScope context identity typeArguments state.bindings)
    (hrepresentation : namedState.representation = state.representation) :
    annotateSample context identity typeArguments structural namedState state.bindings
      = .ok (annotated context identity typeArguments state structural) := by
  rw [annotateSample, annotated, hrepresentation]
  cases state.representation with
  | ledger => rfl
  | typeScript =>
      dsimp only
      rw [wrapNamedTypeSample, hbindings]
      cases exportedType context identity with
      | none => rfl
      | some exported =>
          dsimp only
          rw [emitArgumentNames_ok h.closed h.inScope]
          rfl

/-- The state in which a definition is emitted. -/
def SampleState.named (state : SampleState) (bindings : Bindings) : SampleState := { state with bindings }

/-- The state in which a definition is emitted one level down. -/
def SampleState.nested (state : SampleState) (bindings : Bindings) (reference : String) : SampleState :=
  { state with bindings, depth := state.depth - 1, activeReferences := state.activeReferences ++ [reference] }

/-- What `emitFinite` does at a reference that resolves. -/
theorem emitFinite_reference {definition : TypeDefinition} {fuel : Nat} {visitedReferences : List String}
    (h : WellScoped context (.namedReference identity typeArguments) state.bindings)
    (hdefinition : context.definitionIndex.get identity.key = some definition) :
    emitFinite context (fuel + 1) (.namedReference identity typeArguments) state visitedReferences
      = if referenceKey identity typeArguments state.bindings ∈ visitedReferences then .ok none
        else do
          let structural ← emitFiniteDefinition context
            (fun type inner => emitFinite context fuel type inner
              (referenceKey identity typeArguments state.bindings :: visitedReferences)) definition
            (state.named (enteredScope context identity typeArguments state.bindings))
          return structural.map (annotated context identity typeArguments state) := by
  obtain ⟨_, hsame, hentered⟩ := @withDefinitionBindings_ok _ state.path state.bindings _ _ _ h.inScope
  cases hdefinition.symm.trans hsame
  rw [emitFinite, hdefinition]
  refine if_congr Iff.rfl rfl ?_
  dsimp only
  rw [hentered, show ∀ next : Bindings → Emitted (Option Expression), (Except.ok _ >>= next) = next _ from fun _ => rfl]
  refine congrArg (Bind.bind (m := Emitted) _) (funext fun structural => ?_)
  cases structural with
  | none => rfl
  | some structural =>
      have hannotated : annotateSample context identity typeArguments structural
          { state with bindings := enteredScope context identity typeArguments state.bindings } state.bindings = .ok _ :=
        annotateSample_ok h rfl rfl
      dsimp only
      rw [hannotated]
      rfl

/-- What `emit` does where it cannot descend. -/
theorem emit_shallow {fuel : Nat} (h : state.depth ≤ 0) :
    emit context (fuel + 1) type state = emitFiniteOrThrow context fuel type state := by
  cases type <;> exact if_pos h

/-- What `emit` does at a reference that resolves. -/
theorem emit_reference {definition : TypeDefinition} {fuel : Nat}
    (h : WellScoped context (.namedReference identity typeArguments) state.bindings)
    (hdefinition : context.definitionIndex.get identity.key = some definition) :
    emit context (fuel + 1) (.namedReference identity typeArguments) state
      = if state.depth ≤ 1 ∨ referenceKey identity typeArguments state.bindings ∈ state.activeReferences then
          emitFiniteOrThrow context fuel (.namedReference identity typeArguments) state
        else do
          let structural ← emitDefinition context (emit context fuel) definition
            (state.nested (enteredScope context identity typeArguments state.bindings)
              (referenceKey identity typeArguments state.bindings))
          return annotated context identity typeArguments state structural := by
  obtain ⟨_, hsame, hentered⟩ := @withDefinitionBindings_ok _ state.path state.bindings _ _ _ h.inScope
  cases hdefinition.symm.trans hsame
  rw [emit, hdefinition]
  dsimp only
  rw [hentered, show ∀ next : Bindings → Emitted Expression, (Except.ok _ >>= next) = next _ from fun _ => rfl]
  by_cases hdepth : state.depth ≤ 0
  · rw [if_pos hdepth, if_pos (show state.depth ≤ 1 ∨ _ from .inl (by omega))]
  · by_cases hactive : referenceKey identity typeArguments state.bindings ∈ state.activeReferences
    · rw [if_neg hdepth, if_pos hactive, if_pos (show _ ∨ _ from .inr hactive)]
    · by_cases hlast : state.depth ≤ 1
      · rw [if_neg hdepth, if_neg hactive, if_pos (show state.depth - 1 ≤ 0 by omega), if_pos (show _ ∨ _ from .inl hlast)]
      · rw [if_neg hdepth, if_neg hactive, if_neg (show ¬ state.depth - 1 ≤ 0 by omega),
          if_neg (show ¬ (_ ∨ _) from not_or.mpr ⟨hlast, hactive⟩)]
        refine congrArg (Bind.bind (m := Emitted) _) (funext fun structural => ?_)
        exact annotateSample_ok h rfl rfl

end Scoped

end CantonSdk.DamlInterface.Samples
