import CantonSdk.Base.Search
import CantonSdk.DamlInterface.Samples.Scoping

/-!
# Whether a sample is found

The emitter as a search: a place is a type in a scope, with what is known on the way to it. Below the depth a place needs
a value for all fields of a record, and for one constructor of a variant; above it, for the element of a list and the
first constructor as well. The emitter ends exactly when there is no endless chain of places, and then it throws exactly
when the search fails.
-/

set_option linter.all false

namespace CantonSdk.DamlInterface.Samples

open CantonSdk.Base CantonSdk.DamlLf CantonSdk.DamlValues

/-! ## Values -/

/-- The type has a finite value in the scope. -/
inductive HasFiniteValue (context : SampleContext) : Bindings → AnalyzedType → Prop
  | primitive {bindings : Bindings} {builtinType : DamlPrimitiveType} {numericScale : Option Nat} :
      HasFiniteValue context bindings (.primitive builtinType numericScale)
  | contractId {bindings : Bindings} : HasFiniteValue context bindings .contractId
  | none {bindings : Bindings} {element : AnalyzedType} : HasFiniteValue context bindings (.optional element)
  | emptyList {bindings : Bindings} {element : AnalyzedType} : HasFiniteValue context bindings (.list element)
  | emptyTextMap {bindings : Bindings} {value : AnalyzedType} : HasFiniteValue context bindings (.textMap value)
  | emptyGenMap {bindings : Bindings} {key value : AnalyzedType} : HasFiniteValue context bindings (.genMap key value)
  | record {bindings : Bindings} {fields : List (RecordField AnalyzedType)}
      (h : ∀ field ∈ fields, HasFiniteValue context bindings field.type) : HasFiniteValue context bindings (.record fields)
  | variant {bindings : Bindings} {constructors : List (VariantConstructor AnalyzedType)}
      {constructor_ : VariantConstructor AnalyzedType} (hmem : constructor_ ∈ constructors)
      (h : HasFiniteValue context bindings constructor_.payload) : HasFiniteValue context bindings (.variant constructors)
  | enum {bindings : Bindings} {constructors : List String} (h : constructors ≠ []) :
      HasFiniteValue context bindings (.enum constructors)
  | variable {bindings : Bindings} {name : Option String} {internedStringIndex : Int} {binding : AnalyzedType}
      (hbinding : bindings.get (name, internedStringIndex) = some binding)
      (h : HasFiniteValue context bindings binding) :
      HasFiniteValue context bindings (.typeVariable name internedStringIndex)
  | reference {bindings : Bindings} {identity : TypeConReference} {typeArguments : List AnalyzedType}
      {definition : TypeDefinition} (hdefinition : context.definitionIndex.get identity.key = some definition)
      (h : HasFiniteValue context (enteredScope context identity typeArguments bindings) definition.shape) :
      HasFiniteValue context bindings (.namedReference identity typeArguments)

/-! ## Places -/

inductive Place
  /-- Where `emit` comes. -/
  | emitted (type : AnalyzedType) (bindings : Bindings) (depth : Int) (activeReferences : List String)
  /-- Where `emitFinite` comes. -/
  | searched (type : AnalyzedType) (bindings : Bindings) (visitedReferences : List String)

section Goals

variable (context : SampleContext)

/-- What `emitFinite` needs for a type. -/
def searchedGoal (type : AnalyzedType) (bindings : Bindings) (visitedReferences : List String) : Goal Place :=
  match type with
  | .primitive _ _ | .contractId | .optional _ | .list _ | .textMap _ | .genMap _ _ => .decided true
  | .record fields => .all (fields.map fun field => .searched field.type bindings visitedReferences)
  | .variant constructors =>
      .any (constructors.map fun constructor_ => .searched constructor_.payload bindings visitedReferences)
  | .enum constructors => .decided (decide (constructors ≠ []))
  | .typeVariable name internedStringIndex =>
      match bindings.get (name, internedStringIndex) with
      | none => .decided false
      | some binding => .all [.searched binding bindings visitedReferences]
  | .namedReference identity typeArguments =>
      if referenceKey identity typeArguments bindings ∈ visitedReferences then .decided false
      else
        match context.definitionIndex.get identity.key with
        | none => .decided true
        | some definition =>
            let entered := enteredScope context identity typeArguments bindings
            let nextVisited := referenceKey identity typeArguments bindings :: visitedReferences
            match definition with
            | .record _ _ fields => .all (fields.map fun field => .searched field.type entered nextVisited)
            | _ => .all [.searched definition.shape entered nextVisited]

/-- What `emit` needs for the shape of a definition, or for a type that is one. -/
def shapeGoal (shape : AnalyzedType) (bindings : Bindings) (depth : Int) (activeReferences : List String) : Goal Place :=
  match shape with
  | .record fields => .all (fields.map fun field => .emitted field.type bindings (depth - 1) activeReferences)
  | .variant (first :: _) => .all [.emitted first.payload bindings (depth - 1) activeReferences]
  | .variant [] => .decided false
  | _ => .decided true

/-- What `emit` needs for a type. -/
def emittedGoal (type : AnalyzedType) (bindings : Bindings) (depth : Int) (activeReferences : List String) : Goal Place :=
  if depth ≤ 0 then .all [.searched type bindings []]
  else
    match type with
    | .primitive _ _ | .contractId | .optional _ | .enum _ => .decided true
    | .list element => .all [.emitted element bindings (depth - 1) activeReferences]
    | .textMap value => .all [.emitted value bindings (depth - 1) activeReferences]
    | .genMap key value =>
        .all [.emitted key bindings (depth - 1) activeReferences, .emitted value bindings (depth - 1) activeReferences]
    | .record fields => shapeGoal (.record fields) bindings depth activeReferences
    | .variant constructors => shapeGoal (.variant constructors) bindings depth activeReferences
    | .typeVariable name internedStringIndex =>
        match bindings.get (name, internedStringIndex) with
        | none => .decided false
        | some binding => .all [.emitted binding bindings depth activeReferences]
    | .namedReference identity typeArguments =>
        if depth ≤ 1 ∨ referenceKey identity typeArguments bindings ∈ activeReferences then
          .all [.searched type bindings []]
        else
          match context.definitionIndex.get identity.key with
          | none => .decided true
          | some definition =>
              shapeGoal definition.shape (enteredScope context identity typeArguments bindings) (depth - 1)
                (activeReferences ++ [referenceKey identity typeArguments bindings])

def placeGoal : Place → Goal Place
  | .emitted type bindings depth activeReferences => emittedGoal context type bindings depth activeReferences
  | .searched type bindings visitedReferences => searchedGoal context type bindings visitedReferences

end Goals

/-! ## The emitter is the search -/

section Outcomes

variable {α : Type} {context : SampleContext} {current : Place → Status}

/-- The outcome of `emitFinite`, which throws nothing, is that of the search. -/
def Decides (x : Emitted (Option α)) (outcome : Status) : Prop :=
  match x with
  | .ok (some _) => outcome = .done
  | .ok none => outcome = .failed
  | .error .gaveUp => outcome = .gaveUp
  | .error (.failed _) => False

theorem Decides.map {β : Type} {x : Emitted (Option α)} {outcome : Status} (h : Decides x outcome) (f : α → β) :
    Decides (x >>= fun result => .ok (result.map f)) outcome := by
  rcases x with (_ | _) | (_ | _) <;> exact h

theorem collectProperties_decides {emitField : RecordField AnalyzedType → Emitted (Option Expression)}
    {place : RecordField AnalyzedType → Place} {fields : List (String × RecordField AnalyzedType)}
    (h : ∀ field ∈ fields.map Prod.snd, Decides (emitField field) (current (place field))) :
    Decides (collectProperties emitField fields) (Search.runAll current ((fields.map Prod.snd).map place)) := by
  induction fields with
  | nil => rfl
  | cons field rest ih =>
      obtain ⟨hfield, hrest⟩ := List.forall_mem_cons.mp h
      rw [collectProperties, List.map_cons, List.map_cons, Search.runAll]
      rcases hvalue : emitField field.2 with (message | _) | (_ | value) <;> rw [hvalue] at hfield
      · exact hfield.elim
      · rw [show current (place field.2) = .gaveUp from hfield]
        rfl
      · rw [show current (place field.2) = .failed from hfield]
        rfl
      · rw [show current (place field.2) = .done from hfield]
        exact (ih hrest).map _

theorem collectObject_decides {emitField : RecordField AnalyzedType → Emitted (Option Expression)}
    {place : RecordField AnalyzedType → Place} {fields : List (String × RecordField AnalyzedType)}
    (h : ∀ field ∈ fields.map Prod.snd, Decides (emitField field) (current (place field))) :
    Decides (collectObject emitField fields) (Search.runAll current ((fields.map Prod.snd).map place)) :=
  (collectProperties_decides h).map _

theorem firstConstructor_decides {emitPayload : VariantConstructor AnalyzedType → Emitted (Option Expression)}
    {place : VariantConstructor AnalyzedType → Place} {constructors : List (VariantConstructor AnalyzedType)}
    (h : ∀ constructor_ ∈ constructors, Decides (emitPayload constructor_) (current (place constructor_))) :
    Decides (firstConstructor emitPayload constructors) (Search.runAny current (constructors.map place)) := by
  induction constructors with
  | nil => rfl
  | cons constructor_ rest ih =>
      obtain ⟨hpayload, hrest⟩ := List.forall_mem_cons.mp h
      rw [firstConstructor, List.map_cons, Search.runAny]
      rcases hvalue : emitPayload constructor_ with (message | _) | (_ | value) <;> rw [hvalue] at hpayload
      · exact hpayload.elim
      · rw [show current (place constructor_) = .gaveUp from hpayload]
        rfl
      · rw [show current (place constructor_) = .failed from hpayload]
        exact ih hrest
      · rw [show current (place constructor_) = .done from hpayload]
        rfl

theorem fieldNames_snd (representation : Representation) (fields : List (RecordField AnalyzedType)) :
    (fieldNames representation fields).map Prod.snd = fields := by
  rw [fieldNames, List.map_map]
  exact List.map_id fields

theorem definitionFieldNames_snd (representation : Representation) (definition : TypeDefinition)
    (fields : List (RecordField AnalyzedType)) :
    (definitionFieldNames context representation definition fields).map Prod.snd = fields := by
  rw [definitionFieldNames, List.map_map]
  exact List.zipIdx_map_fst 0 fields

theorem runAll_single (job : Place) : Search.runAll current [job] = current job := by
  rw [Search.runAll]
  cases current job <;> rfl

end Outcomes

section Runs

variable {context : SampleContext} (hindex : ClosedIndex context.definitionIndex) {type : AnalyzedType}
  {state : SampleState} {fuel : Nat}

include hindex in
/-- `emitFinite` finds a value when the search does. -/
theorem emitFinite_decides {visitedReferences : List String} (hscope : WellScoped context type state.bindings) :
    Decides (emitFinite context fuel type state visitedReferences)
      (Search.status (placeGoal context) fuel (.searched type state.bindings visitedReferences)) := by
  induction fuel generalizing type state visitedReferences with
  | zero => rfl
  | succ fuel ih =>
      rw [Search.status, placeGoal]
      cases type with
      | primitive builtinType numericScale => rfl
      | contractId => rfl
      | optional element | list element | textMap element | genMap key element => rfl
      | record fields =>
          have hdecides := @collectObject_decides (Search.status (placeGoal context) fuel)
            (fun field => emitFinite context fuel field.type (state.descend field.propertyName) visitedReferences)
            (fun field => .searched field.type state.bindings visitedReferences) (fieldNames state.representation fields)
          rw [fieldNames_snd] at hdecides
          exact hdecides fun field hfield => @ih _ (state.descend _) _ (hscope.child (List.mem_map_of_mem hfield))
      | variant constructors =>
          exact firstConstructor_decides fun constructor_ hmem =>
            @ih _ (state.descend _) _ (hscope.child (List.mem_map_of_mem hmem))
      | enum constructors => cases constructors <;> rfl
      | typeVariable name internedStringIndex =>
          obtain ⟨binding, hbinding, -⟩ := hscope.variable
          rw [emitFinite, searchedGoal, hbinding]
          dsimp only
          rw [Search.runGoal, runAll_single]
          exact ih (hscope.binding hbinding)
      | namedReference identity typeArguments =>
          obtain ⟨definition, hdefinition, hchildren⟩ := hscope.enter hindex
          rw [emitFinite_reference hscope hdefinition, searchedGoal, hdefinition]
          split_ifs with hvisited
          · rfl
          · refine Decides.map ?_ _
            have hclosed : ClosedBindings context.definitionIndex (enteredScope context identity typeArguments state.bindings) :=
              closed_enteredScope hscope.closed (inScope_arguments hscope.inScope)
            cases definition with
            | record definitionIdentity typeParameters fields =>
                have hdecides := @collectObject_decides (Search.status (placeGoal context) fuel)
                  (fun field => emitFinite context fuel field.type
                    ((state.named (enteredScope context identity typeArguments state.bindings)).descend field.propertyName)
                    (referenceKey identity typeArguments state.bindings :: visitedReferences))
                  (fun field => .searched field.type (enteredScope context identity typeArguments state.bindings)
                    (referenceKey identity typeArguments state.bindings :: visitedReferences))
                  (definitionFieldNames context state.representation
                    (.record definitionIdentity typeParameters fields) fields)
                rw [definitionFieldNames_snd] at hdecides
                exact hdecides fun field hfield =>
                  @ih _ (SampleState.descend _ _) _ (hchildren field.type (List.mem_map_of_mem hfield))
            | variant definitionIdentity typeParameters constructors =>
                dsimp only
                rw [Search.runGoal, runAll_single]
                exact @ih _ (state.named _) _ (WellScoped.shape hclosed hchildren)
            | enum definitionIdentity constructors =>
                dsimp only
                rw [Search.runGoal, runAll_single]
                exact @ih _ (state.named _) _ (WellScoped.shape hclosed hchildren)

/-! ### Above the depth -/

open Traversal (statusOf)

theorem statusOf_map {α β : Type} (x : Emitted α) (f : α → β) : statusOf (x >>= fun a => .ok (f a)) = statusOf x := by
  rcases x with (_ | _) | _ <;> rfl

theorem emitProperties_status {current : Place → Status} {emitField : RecordField AnalyzedType → Emitted Expression}
    {place : RecordField AnalyzedType → Place} {fields : List (String × RecordField AnalyzedType)}
    (h : ∀ field ∈ fields.map Prod.snd, statusOf (emitField field) = current (place field)) :
    statusOf (emitProperties emitField fields) = Search.runAll current ((fields.map Prod.snd).map place) := by
  rw [emitProperties]
  refine (statusOf_map _ Expression.object).trans ?_
  induction fields with
  | nil => rfl
  | cons field rest ih =>
      obtain ⟨hfield, hrest⟩ := List.forall_mem_cons.mp h
      rw [List.mapM_cons, List.map_cons, List.map_cons, Search.runAll, ← hfield, ← ih hrest]
      dsimp only
      generalize (List.mapM _ rest : Emitted (List (String × Expression))) = others
      rcases emitField field.2 with (message | _) | value <;> rcases others with (_ | _) | _ <;> rfl

theorem emitVariant_status {current : Place → Status} {emitPayload : VariantConstructor AnalyzedType → Emitted Expression}
    {path : List String} {first : VariantConstructor AnalyzedType} {rest : List (VariantConstructor AnalyzedType)}
    {place : Place} (h : statusOf (emitPayload first) = current place) :
    statusOf (emitVariant emitPayload path (first :: rest)) = Search.runAll current [place] := by
  rw [runAll_single, ← h]
  exact statusOf_map _ _

/-- The properties of a shape. -/
theorem emitDefinition_status {current : Place → Status} {emitType : AnalyzedType → SampleState → Emitted Expression}
    {definition : TypeDefinition}
    (h : ∀ child ∈ definition.shape.children, ∀ segment, statusOf (emitType child (state.descend segment))
      = current (.emitted child state.bindings (state.depth - 1) state.activeReferences)) :
    statusOf (emitDefinition context emitType definition state)
      = Search.runGoal current (shapeGoal definition.shape state.bindings state.depth state.activeReferences) := by
  cases definition with
  | record identity typeParameters fields =>
      have hstatus := @emitProperties_status current (fun field => emitType field.type (state.descend field.propertyName))
        (fun field => .emitted field.type state.bindings (state.depth - 1) state.activeReferences)
        (definitionFieldNames context state.representation (.record identity typeParameters fields) fields)
      rw [definitionFieldNames_snd] at hstatus
      exact hstatus fun field hfield => h field.type (List.mem_map_of_mem hfield) field.propertyName
  | variant identity typeParameters constructors =>
      cases constructors with
      | nil => rfl
      | cons first rest =>
          rw [emitDefinition]
          exact emitVariant_status (h first.payload List.mem_cons_self first.constructorName)
  | enum identity constructors => rfl

include hindex in
theorem emitFiniteOrThrow_status (hscope : WellScoped context type state.bindings) :
    statusOf (emitFiniteOrThrow context fuel type state)
      = Search.runAll (Search.status (placeGoal context) fuel) [.searched type state.bindings []] := by
  have hdecides := @emitFinite_decides context hindex type state fuel [] hscope
  rw [runAll_single, emitFiniteOrThrow]
  rcases hfinite : emitFinite context fuel type state [] with (message | _) | (_ | value) <;> rw [hfinite] at hdecides
  · exact hdecides.elim
  · exact (show Search.status (placeGoal context) fuel (.searched type state.bindings []) = .gaveUp from hdecides).symm
  · exact (show Search.status (placeGoal context) fuel (.searched type state.bindings []) = .failed from hdecides).symm
  · exact (show Search.status (placeGoal context) fuel (.searched type state.bindings []) = .done from hdecides).symm

theorem emittedGoal_shallow {bindings : Bindings} {depth : Int} {activeReferences : List String} (h : depth ≤ 0) :
    emittedGoal context type bindings depth activeReferences = .all [.searched type bindings []] := by
  cases type <;> exact if_pos h

include hindex in
/-- `emit` returns, throws or goes on when the search succeeds, fails or goes on. -/
theorem emit_status (hscope : WellScoped context type state.bindings) :
    statusOf (emit context fuel type state)
      = Search.status (placeGoal context) fuel (.emitted type state.bindings state.depth state.activeReferences) := by
  induction fuel generalizing type state with
  | zero => rfl
  | succ fuel ih =>
      rw [Search.status, placeGoal]
      by_cases hdepth : state.depth ≤ 0
      · rw [emit_shallow hdepth, emittedGoal_shallow hdepth]
        exact emitFiniteOrThrow_status hindex hscope
      have hdescend : ∀ child ∈ type.children, ∀ segment, statusOf (emit context fuel child (state.descend segment))
          = Search.status (placeGoal context) fuel
            (.emitted child state.bindings (state.depth - 1) state.activeReferences) :=
        fun child hchild segment => @ih child (state.descend segment) (hscope.child hchild)
      cases type with
      | primitive builtinType numericScale | contractId | optional element | enum constructors =>
          rw [emit, emittedGoal, if_neg hdepth, if_neg hdepth]
          rfl
      | list element | textMap element =>
          rw [emit, emittedGoal, if_neg hdepth, if_neg hdepth, Search.runGoal, runAll_single, ← hdescend element List.mem_cons_self _]
          exact statusOf_map _ _
      | genMap key element =>
          have hkey := hdescend key List.mem_cons_self "[0].key"
          have hvalue := hdescend element (List.mem_cons_of_mem _ List.mem_cons_self) "[0].value"
          rw [emit, emittedGoal, if_neg hdepth, if_neg hdepth, Search.runGoal, Search.runAll, runAll_single, ← hkey, ← hvalue]
          rcases emit context fuel key (state.descend "[0].key") with (_ | _) | _ <;>
            rcases emit context fuel element (state.descend "[0].value") with (_ | _) | _ <;> rfl
      | record fields =>
          rw [emit, emittedGoal, if_neg hdepth, if_neg hdepth]
          have hstatus := @emitProperties_status (Search.status (placeGoal context) fuel)
            (fun field => emit context fuel field.type (state.descend field.propertyName))
            (fun field => .emitted field.type state.bindings (state.depth - 1) state.activeReferences)
            (fieldNames state.representation fields)
          rw [fieldNames_snd] at hstatus
          exact hstatus fun field hfield => hdescend field.type (List.mem_map_of_mem hfield) field.propertyName
      | variant constructors =>
          rw [emit, emittedGoal, if_neg hdepth, if_neg hdepth]
          cases constructors with
          | nil => rfl
          | cons first rest => exact emitVariant_status (hdescend first.payload List.mem_cons_self _)
      | typeVariable name internedStringIndex =>
          obtain ⟨binding, hbinding, -⟩ := hscope.variable
          rw [emit, emittedGoal, if_neg hdepth, if_neg hdepth, hbinding]
          dsimp only
          rw [Search.runGoal, runAll_single]
          exact ih (hscope.binding hbinding)
      | namedReference identity typeArguments =>
          obtain ⟨definition, hdefinition, hchildren⟩ := hscope.enter hindex
          rw [emit_reference hscope hdefinition, emittedGoal, if_neg hdepth, hdefinition]
          split_ifs with hstop
          · exact emitFiniteOrThrow_status hindex hscope
          · refine (statusOf_map _ _).trans ?_
            exact @emitDefinition_status _ (state.nested _ _) _ _ definition fun child hchild segment =>
              @ih child (SampleState.descend _ segment) (hchildren child hchild)

end Runs

/-! ## Completeness -/

section Complete

variable {context : SampleContext} {type : AnalyzedType}

/-- `emitOrThrow` ends, and throws only if the type has no finite value. -/
def SynthesisComplete (context : SampleContext) (type : AnalyzedType) (options : SampleOptions)
    (representation : Representation) : Prop :=
  ∃ fuel, match emitOrThrow context fuel type options representation with
    | .ok _ => True
    | .error (.failed _) => ¬ HasFiniteValue context options.typeVariableBindings type
    | .error .gaveUp => False

/-- The place where the emitter starts. -/
def SampleOptions.start (options : SampleOptions) (type : AnalyzedType) : Place :=
  .emitted type options.typeVariableBindings options.maximumDepth []

theorem synthesisComplete_iff_succeeds {options : SampleOptions} {representation : Representation}
    (hindex : ClosedIndex context.definitionIndex) (hscope : WellScoped context type options.typeVariableBindings) :
    SynthesisComplete context type options representation
      ↔ Search.Founded (placeGoal context) (options.start type) ∧
        (HasFiniteValue context options.typeVariableBindings type →
          Search.Succeeds (placeGoal context) (options.start type)) := by
  have hstatus : ∀ fuel, Traversal.statusOf (emitOrThrow context fuel type options representation)
      = Search.status (placeGoal context) fuel (options.start type) :=
    fun fuel => @emit_status context hindex type (options.state representation) fuel hscope
  rw [SynthesisComplete, ← Search.finishes_iff]
  constructor
  · rintro ⟨fuel, h⟩
    have hfuel := hstatus fuel
    generalize emitOrThrow context fuel type options representation = result at h hfuel
    rcases result with (message | _) | expression
    · exact ⟨⟨fuel, fun hgaveUp => nomatch hfuel.trans hgaveUp⟩, fun hvalue => absurd hvalue h⟩
    · exact h.elim
    · exact ⟨⟨fuel, fun hgaveUp => nomatch hfuel.trans hgaveUp⟩, fun _ => (Search.sound_status fuel).done _ hfuel.symm⟩
  · rintro ⟨⟨fuel, hfinishes⟩, hsucceeds⟩
    refine ⟨fuel, ?_⟩
    have hfuel := hstatus fuel
    generalize emitOrThrow context fuel type options representation = result at hfuel ⊢
    rcases result with (message | _) | expression
    · exact fun hvalue => (Search.sound_status fuel).failed _ hfuel.symm (hsucceeds hvalue)
    · exact hfinishes hfuel.symm
    · exact trivial

/-! ### Dead ends -/

/-- `emit` needs a sample at the second place for one at the first. -/
def Insists (context : SampleContext) (place next : Place) : Prop :=
  next ∈ (placeGoal context place).parts ∧
    ∃ type bindings depth activeReferences, next = .emitted type bindings depth activeReferences

/-- A variant without constructors, or a place where `emit` does not descend and `emitFinite` has no value to find: none in
which every reference has another fingerprint than the references around it. -/
def DeadEnd (context : SampleContext) (place : Place) : Prop :=
  placeGoal context place = .decided false ∨
    ∃ type bindings, .searched type bindings [] ∈ (placeGoal context place).parts ∧
      ¬ Search.Succeeds (placeGoal context) (.searched type bindings [])

/-- What `emit` needs, it needs all of. -/
theorem shapeGoal_cases (shape : AnalyzedType) (bindings : Bindings) (depth : Int) (activeReferences : List String) :
    (∃ holds, shapeGoal shape bindings depth activeReferences = .decided holds) ∨
      ∃ jobs, shapeGoal shape bindings depth activeReferences = .all jobs ∧
        ∀ job ∈ jobs, ∃ child, job = .emitted child bindings (depth - 1) activeReferences := by
  cases shape with
  | record fields =>
      refine .inr ⟨_, rfl, fun job hjob => ?_⟩
      obtain ⟨field, -, rfl⟩ := List.mem_map.mp hjob
      exact ⟨field.type, rfl⟩
  | variant constructors =>
      cases constructors with
      | nil => exact .inl ⟨false, rfl⟩
      | cons first rest => exact .inr ⟨_, rfl, fun job hjob => ⟨first.payload, List.mem_singleton.mp hjob⟩⟩
  | _ => exact .inl ⟨true, rfl⟩

theorem emittedGoal_cases (type : AnalyzedType) (bindings : Bindings) (depth : Int) (activeReferences : List String) :
    (∃ holds, emittedGoal context type bindings depth activeReferences = .decided holds) ∨
      emittedGoal context type bindings depth activeReferences = .all [.searched type bindings []] ∨
      ∃ jobs, emittedGoal context type bindings depth activeReferences = .all jobs ∧
        ∀ job ∈ jobs, ∃ child scope depth references, job = .emitted child scope depth references := by
  by_cases hdepth : depth ≤ 0
  · exact .inr (.inl (emittedGoal_shallow hdepth))
  have hshape : ∀ shape scope less references, emittedGoal context type bindings depth activeReferences
      = shapeGoal shape scope less references →
      (∃ holds, emittedGoal context type bindings depth activeReferences = .decided holds) ∨
      emittedGoal context type bindings depth activeReferences = .all [.searched type bindings []] ∨
      ∃ jobs, emittedGoal context type bindings depth activeReferences = .all jobs ∧
        ∀ job ∈ jobs, ∃ child scope depth references, job = .emitted child scope depth references := by
    intro shape scope less references heq
    rw [heq]
    rcases shapeGoal_cases shape scope less references with hdecided | ⟨jobs, hjobs, hall⟩
    · exact .inl hdecided
    · refine .inr (.inr ⟨jobs, hjobs, fun job hjob => ?_⟩)
      obtain ⟨child, hchild⟩ := hall job hjob
      exact ⟨child, scope, less - 1, references, hchild⟩
  cases type with
  | primitive builtinType numericScale | contractId | optional element | enum constructors =>
      exact .inl ⟨true, by rw [emittedGoal, if_neg hdepth]⟩
  | list element | textMap element =>
      refine .inr (.inr ⟨_, by rw [emittedGoal, if_neg hdepth], fun job hjob => ?_⟩)
      exact ⟨_, _, _, _, List.mem_singleton.mp hjob⟩
  | genMap key element =>
      refine .inr (.inr ⟨_, by rw [emittedGoal, if_neg hdepth], fun job hjob => ?_⟩)
      rcases List.mem_cons.mp hjob with hkey | hvalue
      · exact ⟨_, _, _, _, hkey⟩
      · exact ⟨_, _, _, _, List.mem_singleton.mp hvalue⟩
  | record fields => exact hshape (.record fields) bindings depth activeReferences (by rw [emittedGoal, if_neg hdepth])
  | variant constructors =>
      exact hshape (.variant constructors) bindings depth activeReferences (by rw [emittedGoal, if_neg hdepth])
  | typeVariable name internedStringIndex =>
      cases hbinding : bindings.get (name, internedStringIndex) with
      | none => exact .inl ⟨false, by rw [emittedGoal, if_neg hdepth, hbinding]⟩
      | some binding =>
          refine .inr (.inr ⟨_, by rw [emittedGoal, if_neg hdepth, hbinding], fun job hjob => ?_⟩)
          exact ⟨_, _, _, _, List.mem_singleton.mp hjob⟩
  | namedReference identity typeArguments =>
      by_cases hstop : depth ≤ 1 ∨ referenceKey identity typeArguments bindings ∈ activeReferences
      · exact .inr (.inl (by rw [emittedGoal, if_neg hdepth, if_pos hstop]))
      · cases hdefinition : context.definitionIndex.get identity.key with
        | none => exact .inl ⟨true, by rw [emittedGoal, if_neg hdepth, if_neg hstop, hdefinition]⟩
        | some definition =>
            exact hshape definition.shape _ _ _ (by rw [emittedGoal, if_neg hdepth, if_neg hstop, hdefinition])

/-- What `emit` needs at a place. -/
theorem emittedPlace_cases {place : Place}
    (h : ∃ type bindings depth activeReferences, place = .emitted type bindings depth activeReferences) :
    (∃ holds, placeGoal context place = .decided holds) ∨
      (∃ type bindings, placeGoal context place = .all [.searched type bindings []]) ∨
      ∃ jobs, placeGoal context place = .all jobs ∧
        ∀ job ∈ jobs, ∃ type bindings depth activeReferences, job = .emitted type bindings depth activeReferences := by
  obtain ⟨type, bindings, depth, activeReferences, rfl⟩ := h
  rcases @emittedGoal_cases context type bindings depth activeReferences with hdecided | hsearched | hjobs
  · exact .inl hdecided
  · exact .inr (.inl ⟨type, bindings, hsearched⟩)
  · exact .inr (.inr hjobs)

section Needs

variable {place : Place} (hplace : ∃ type bindings depth activeReferences, place = .emitted type bindings depth activeReferences)
include hplace

/-- Where `emit` succeeds it does so at every place that it needs a sample at. -/
theorem Insists.succeeds {next : Place} (h : Insists context place next)
    (hsucceeds : Search.Succeeds (placeGoal context) place) : Search.Succeeds (placeGoal context) next := by
  have hpart := h.1
  rcases @emittedPlace_cases context place hplace with ⟨holds, hgoal⟩ | ⟨type, bindings, hgoal⟩ | ⟨jobs, hgoal, -⟩
  · rw [hgoal] at hpart
    exact absurd hpart List.not_mem_nil
  · rw [hgoal] at hpart
    exact (Search.succeeds_all hgoal).mp hsucceeds next hpart
  · rw [hgoal] at hpart
    exact (Search.succeeds_all hgoal).mp hsucceeds next hpart

theorem not_deadEnd_of_succeeds (hsucceeds : Search.Succeeds (placeGoal context) place) : ¬ DeadEnd context place := by
  rintro (hgoal | ⟨type, bindings, hpart, hfails⟩)
  · exact absurd ((Search.succeeds_decided hgoal).mp hsucceeds) Bool.false_ne_true
  · rcases @emittedPlace_cases context place hplace with ⟨holds, hgoal⟩ | ⟨_, _, hgoal⟩ | ⟨jobs, hgoal, -⟩
    · rw [hgoal] at hpart
      exact absurd hpart List.not_mem_nil
    · rw [hgoal] at hpart
      exact hfails ((Search.succeeds_all hgoal).mp hsucceeds _ hpart)
    · rw [hgoal] at hpart
      exact hfails ((Search.succeeds_all hgoal).mp hsucceeds _ hpart)

/-- A sample is found exactly when `emit` needs none at a dead end. -/
theorem succeeds_iff_no_dead_end (hfounded : Search.Founded (placeGoal context) place) :
    Search.Succeeds (placeGoal context) place
      ↔ ∀ next, Relation.ReflTransGen (Insists context) place next → ¬ DeadEnd context next := by
  constructor
  · intro hsucceeds next hchain
    have hnext : Search.Succeeds (placeGoal context) next ∧
        ∃ type bindings depth activeReferences, next = .emitted type bindings depth activeReferences := by
      induction hchain with
      | refl => exact ⟨hsucceeds, hplace⟩
      | tail _ hlast ih => exact ⟨hlast.succeeds ih.2 ih.1, hlast.2⟩
    exact not_deadEnd_of_succeeds hnext.2 hnext.1
  · intro hlive
    induction hfounded with
    | intro place _ ih =>
        rcases @emittedPlace_cases context place hplace with ⟨holds, hgoal⟩ | ⟨type, bindings, hgoal⟩ | ⟨jobs, hgoal, hjobs⟩
        · cases holds with
          | true => exact .decided hgoal
          | false => exact absurd (.inl hgoal) (hlive place .refl)
        · refine .all hgoal (List.forall_mem_singleton.mpr (by_contra fun hfails => hlive place .refl (.inr ?_)))
          exact ⟨type, bindings, by rw [hgoal]; exact List.mem_singleton_self _, hfails⟩
        · refine Search.succeeds_of_comes hgoal fun called hcomes => ?_
          have hpart := Search.mem_parts_of_comes hcomes
          have hcalled := hjobs called (by rwa [hgoal] at hpart)
          exact ih called hcomes hcalled fun next hchain => hlive next (.head ⟨hpart, hcalled⟩ hchain)

end Needs

end Complete

end CantonSdk.DamlInterface.Samples
