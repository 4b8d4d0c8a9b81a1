import CantonSdk.DamlInterface.Samples.Annotations
import CantonSdk.DamlInterface.Samples.Completeness
import Mathlib.Data.Finset.Card
import Mathlib.Data.Finset.SDiff

/-!
# When the search for a sample ends

`emitFinite` enters no reference within one of the same fingerprint, so an endless search enters references of ever new
fingerprints. The emitter ends exactly when the references that it comes to have finitely many fingerprints.
-/

set_option linter.all false

namespace CantonSdk.DamlInterface.Samples

open CantonSdk.Base CantonSdk.DamlLf CantonSdk.DamlValues

section Steps

variable {context : SampleContext} {type : AnalyzedType} {bindings : Bindings}

/-- The type of the place is in the scope of the place. -/
def PlaceScoped (context : SampleContext) : Place → Prop
  | .emitted type bindings _ _ => WellScoped context type bindings
  | .searched type bindings _ => WellScoped context type bindings

/-- A definition that is entered is in its scope, as are the types in it. -/
theorem WellScoped.entered (hindex : ClosedIndex context.definitionIndex) {identity : TypeConReference}
    {typeArguments : List AnalyzedType} {definition : TypeDefinition}
    (h : WellScoped context (.namedReference identity typeArguments) bindings)
    (hdefinition : context.definitionIndex.get identity.key = some definition) :
    WellScoped context definition.shape (enteredScope context identity typeArguments bindings) := by
  obtain ⟨_, hsame, hchildren⟩ := h.enter hindex
  cases hdefinition.symm.trans hsame
  exact .shape (closed_enteredScope h.closed (inScope_arguments h.inScope)) hchildren

/-- `emitFinite` comes to a type in the type, to what a variable is bound to, or into a definition. -/
theorem searched_part {visitedReferences : List String} {called : Place} (hindex : ClosedIndex context.definitionIndex)
    (hscope : WellScoped context type bindings)
    (h : called ∈ (placeGoal context (.searched type bindings visitedReferences)).parts) :
    (∃ child ∈ type.children, called = .searched child bindings visitedReferences) ∨
      (∃ name internedStringIndex binding, type = .typeVariable name internedStringIndex ∧
        bindings.get (name, internedStringIndex) = some binding ∧ called = .searched binding bindings visitedReferences) ∨
      ∃ identity typeArguments inner, type = .namedReference identity typeArguments ∧
        referenceKey identity typeArguments bindings ∉ visitedReferences ∧
        WellScoped context inner (enteredScope context identity typeArguments bindings) ∧
        called = .searched inner (enteredScope context identity typeArguments bindings)
          (referenceKey identity typeArguments bindings :: visitedReferences) := by
  cases type with
  | primitive | contractId | optional | list | textMap | genMap | enum => exact absurd h List.not_mem_nil
  | record fields =>
      obtain ⟨field, hfield, rfl⟩ := List.mem_map.mp h
      exact .inl ⟨field.type, List.mem_map_of_mem hfield, rfl⟩
  | variant constructors =>
      obtain ⟨constructor_, hconstructor, rfl⟩ := List.mem_map.mp h
      exact .inl ⟨constructor_.payload, List.mem_map_of_mem hconstructor, rfl⟩
  | typeVariable name internedStringIndex =>
      obtain ⟨binding, hbinding, -⟩ := hscope.variable
      rw [placeGoal, searchedGoal, hbinding] at h
      exact .inr (.inl ⟨name, internedStringIndex, binding, rfl, hbinding, List.mem_singleton.mp h⟩)
  | namedReference identity typeArguments =>
      obtain ⟨definition, hdefinition, hchildren⟩ := hscope.enter hindex
      have hshape := hscope.entered hindex hdefinition
      rw [placeGoal, searchedGoal, hdefinition] at h
      refine .inr (.inr ⟨identity, typeArguments, ?_⟩)
      split_ifs at h with hvisited
      · exact absurd h List.not_mem_nil
      · cases definition with
        | record definitionIdentity typeParameters fields =>
            obtain ⟨field, hfield, rfl⟩ := List.mem_map.mp h
            exact ⟨field.type, rfl, hvisited, hshape.child (List.mem_map_of_mem hfield), rfl⟩
        | variant definitionIdentity typeParameters constructors =>
            exact ⟨.variant constructors, rfl, hvisited, hshape, List.mem_singleton.mp h⟩
        | enum definitionIdentity constructors =>
            exact ⟨.enum constructors, rfl, hvisited, hshape, List.mem_singleton.mp h⟩

theorem shapeGoal_part {depth : Int} {activeReferences : List String} {called : Place}
    (h : called ∈ (shapeGoal type bindings depth activeReferences).parts) :
    ∃ child ∈ type.children, called = .emitted child bindings (depth - 1) activeReferences := by
  cases type with
  | record fields =>
      obtain ⟨field, hfield, rfl⟩ := List.mem_map.mp h
      exact ⟨field.type, List.mem_map_of_mem hfield, rfl⟩
  | variant constructors =>
      cases constructors with
      | nil => exact absurd h List.not_mem_nil
      | cons first rest => exact ⟨first.payload, List.mem_cons_self, List.mem_singleton.mp h⟩
  | _ => exact absurd h List.not_mem_nil

/-- `emit` goes over to `emitFinite`, descends, or comes to what a variable is bound to. -/
theorem emitted_part {depth : Int} {activeReferences : List String} {called : Place}
    (hindex : ClosedIndex context.definitionIndex) (hscope : WellScoped context type bindings)
    (h : called ∈ (placeGoal context (.emitted type bindings depth activeReferences)).parts) :
    called = .searched type bindings [] ∨
      (∃ child scope less references, called = .emitted child scope less references ∧ 0 < depth ∧ less < depth ∧
        WellScoped context child scope) ∨
      ∃ name internedStringIndex binding, type = .typeVariable name internedStringIndex ∧
        bindings.get (name, internedStringIndex) = some binding ∧
        called = .emitted binding bindings depth activeReferences := by
  rw [placeGoal] at h
  by_cases hdepth : depth ≤ 0
  · rw [emittedGoal_shallow hdepth] at h
    exact .inl (List.mem_singleton.mp h)
  have hpositive : 0 < depth := by omega
  have hbelow : ∀ child ∈ type.children, called = .emitted child bindings (depth - 1) activeReferences →
      ∃ child scope less references, called = .emitted child scope less references ∧ 0 < depth ∧ less < depth ∧
        WellScoped context child scope :=
    fun child hchild hcalled => ⟨child, bindings, depth - 1, _, hcalled, hpositive, by omega, hscope.child hchild⟩
  cases type with
  | primitive | contractId | optional | enum =>
      rw [emittedGoal, if_neg hdepth] at h
      exact absurd h List.not_mem_nil
  | list element | textMap element =>
      rw [emittedGoal, if_neg hdepth] at h
      exact .inr (.inl (hbelow element List.mem_cons_self (List.mem_singleton.mp h)))
  | genMap key element =>
      rw [emittedGoal, if_neg hdepth] at h
      rcases List.mem_cons.mp h with hkey | hvalue
      · exact .inr (.inl (hbelow key List.mem_cons_self hkey))
      · exact .inr (.inl (hbelow element (List.mem_cons_of_mem _ List.mem_cons_self) (List.mem_singleton.mp hvalue)))
  | record fields | variant constructors =>
      rw [emittedGoal, if_neg hdepth] at h
      obtain ⟨child, hchild, hcalled⟩ := shapeGoal_part h
      exact .inr (.inl (hbelow child hchild hcalled))
  | typeVariable name internedStringIndex =>
      obtain ⟨binding, hbinding, -⟩ := hscope.variable
      rw [emittedGoal, if_neg hdepth, hbinding] at h
      exact .inr (.inr ⟨name, internedStringIndex, binding, rfl, hbinding, List.mem_singleton.mp h⟩)
  | namedReference identity typeArguments =>
      obtain ⟨definition, hdefinition, -⟩ := hscope.enter hindex
      have hshape := hscope.entered hindex hdefinition
      rw [emittedGoal, if_neg hdepth, hdefinition] at h
      split_ifs at h with hstop
      · exact .inl (List.mem_singleton.mp h)
      · obtain ⟨child, hchild, hcalled⟩ := shapeGoal_part h
        exact .inr (.inl ⟨child, _, _, _, hcalled, hpositive, by omega, hshape.child hchild⟩)

end Steps

/-! ## Finitely many fingerprints -/

/-- The fingerprints of the references that `emitFinite` comes to from a place. -/
def fingerprintsMet (context : SampleContext) (start : Place) : Set String :=
  {key | ∃ identity typeArguments bindings visitedReferences,
    Search.Reaches (placeGoal context) start
      (.searched (.namedReference identity typeArguments) bindings visitedReferences) ∧
    key = referenceKey identity typeArguments bindings}

/-- The fingerprint of a reference that is searched. -/
def searchedFingerprint : Place → String
  | .searched (.namedReference identity typeArguments) bindings _ => referenceKey identity typeArguments bindings
  | _ => ""

section Ends

variable {context : SampleContext} {start : Place} {met : Finset String} {type : AnalyzedType} {bindings : Bindings}
  {visitedReferences : List String}

/-- If there is no endless chain from any place that a type leads to, there is none from the type. -/
theorem founded_of_children (hindex : ClosedIndex context.definitionIndex)
    (hmet : ∀ key ∈ fingerprintsMet context start, key ∈ met) (hscope : WellScoped context type bindings)
    (hvariable : ∀ name internedStringIndex, type ≠ .typeVariable name internedStringIndex)
    (hreach : Search.Reaches (placeGoal context) start (.searched type bindings visitedReferences))
    (hchildren : ∀ child ∈ type.children,
      Search.Reaches (placeGoal context) start (.searched child bindings visitedReferences) →
      Search.Founded (placeGoal context) (.searched child bindings visitedReferences))
    (hfewer : ∀ inner scope nextVisited, (met \ nextVisited.toFinset).card < (met \ visitedReferences.toFinset).card →
      WellScoped context inner scope → Search.Reaches (placeGoal context) start (.searched inner scope nextVisited) →
      Search.Founded (placeGoal context) (.searched inner scope nextVisited)) :
    Search.Founded (placeGoal context) (.searched type bindings visitedReferences) := by
  refine .intro _ fun called hcomes => ?_
  have hcalled := hreach.tail hcomes
  rcases searched_part hindex hscope (Search.mem_parts_of_comes hcomes) with
    ⟨child, hchild, rfl⟩ | ⟨name, internedStringIndex, -, rfl, -⟩ | ⟨identity, typeArguments, inner, rfl, hnew, hinner, rfl⟩
  · exact hchildren child hchild hcalled
  · exact absurd rfl (hvariable name internedStringIndex)
  · refine hfewer _ _ _ (Finset.card_lt_card ?_) hinner hcalled
    have hkey : referenceKey identity typeArguments bindings ∈ met :=
      hmet _ ⟨identity, typeArguments, bindings, visitedReferences, hreach, rfl⟩
    rw [Finset.ssubset_iff_of_subset (Finset.sdiff_subset_sdiff subset_rfl fun key hvisited => by simp_all)]
    exact ⟨_, by simpa using ⟨hkey, hnew⟩, by simp⟩

/-- Each reference takes one of the fingerprints away; between two references the types get smaller, once a variable has
been looked up. -/
theorem founded_searched (hindex : ClosedIndex context.definitionIndex)
    (hmet : ∀ key ∈ fingerprintsMet context start, key ∈ met) (hscope : WellScoped context type bindings)
    (hreach : Search.Reaches (placeGoal context) start (.searched type bindings visitedReferences)) :
    Search.Founded (placeGoal context) (.searched type bindings visitedReferences) := by
  induction hcount : (met \ visitedReferences.toFinset).card using Nat.strong_induction_on
    generalizing type bindings visitedReferences with
  | _ count ih =>
      subst hcount
      have hfewer : ∀ inner scope nextVisited,
          (met \ nextVisited.toFinset).card < (met \ visitedReferences.toFinset).card → WellScoped context inner scope →
          Search.Reaches (placeGoal context) start (.searched inner scope nextVisited) →
          Search.Founded (placeGoal context) (.searched inner scope nextVisited) :=
        fun inner scope nextVisited hless hinner hnext => ih _ hless hinner hnext rfl
      have hclosed : ∀ closed, ClosedType context.definitionIndex closed →
          Search.Reaches (placeGoal context) start (.searched closed bindings visitedReferences) →
          Search.Founded (placeGoal context) (.searched closed bindings visitedReferences) := by
        intro closed hclosed hcomes
        induction closed using AnalyzedType.rec_children with
        | h closed ihclosed =>
            refine founded_of_children hindex hmet ⟨hscope.closed, hclosed.inScope⟩ ?_ hcomes ?_ hfewer
            · rintro name internedStringIndex rfl
              exact not_closed_variable hclosed
            · exact fun child hchild => ihclosed child hchild (hclosed.child hchild)
      induction type using AnalyzedType.rec_children with
      | h type ihtype =>
          by_cases hvariable : ∃ name internedStringIndex, type = .typeVariable name internedStringIndex
          · obtain ⟨name, internedStringIndex, rfl⟩ := hvariable
            refine .intro _ fun called hcomes => ?_
            have hcalled := hreach.tail hcomes
            obtain ⟨binding, hbinding, hbound⟩ := hscope.variable
            have hpart := Search.mem_parts_of_comes hcomes
            rw [placeGoal, searchedGoal, hbinding] at hpart
            obtain rfl := List.mem_singleton.mp hpart
            exact hclosed binding hbound hcalled
          · refine founded_of_children hindex hmet hscope ?_ hreach ?_ hfewer
            · exact fun name internedStringIndex heq => hvariable ⟨name, internedStringIndex, heq⟩
            · exact fun child hchild hcomes => ihtype child hchild (hscope.child hchild) hcomes

/-- `emit` descends to its depth, and looks a variable up at most once in between. -/
theorem founded_emitted {depth : Int} {activeReferences : List String} (hindex : ClosedIndex context.definitionIndex)
    (hmet : ∀ key ∈ fingerprintsMet context start, key ∈ met) (hscope : WellScoped context type bindings)
    (hreach : Search.Reaches (placeGoal context) start (.emitted type bindings depth activeReferences)) :
    Search.Founded (placeGoal context) (.emitted type bindings depth activeReferences) := by
  induction hlevel : depth.toNat using Nat.strong_induction_on generalizing type bindings depth activeReferences with
  | _ level ih =>
      subst hlevel
      have hclosed : ∀ closed, ClosedType context.definitionIndex closed →
          Search.Reaches (placeGoal context) start (.emitted closed bindings depth activeReferences) →
          Search.Founded (placeGoal context) (.emitted closed bindings depth activeReferences) := by
        intro closed hclosed hcomes
        refine .intro _ fun called hcalled => ?_
        have hreached := hcomes.tail hcalled
        have hinner : WellScoped context closed bindings := ⟨hscope.closed, hclosed.inScope⟩
        rcases emitted_part hindex hinner (Search.mem_parts_of_comes hcalled) with
          rfl | ⟨child, scope, less, references, rfl, hpositive, hless, hchild⟩ | ⟨name, internedStringIndex, -, rfl, -⟩
        · exact founded_searched hindex hmet hinner hreached
        · exact ih less.toNat (by omega) hchild hreached rfl
        · exact absurd hclosed not_closed_variable
      refine .intro _ fun called hcalled => ?_
      have hreached := hreach.tail hcalled
      rcases emitted_part hindex hscope (Search.mem_parts_of_comes hcalled) with
        rfl | ⟨child, scope, less, references, rfl, hpositive, hless, hchild⟩ |
          ⟨name, internedStringIndex, binding, rfl, hbinding, rfl⟩
      · exact founded_searched hindex hmet hscope hreached
      · exact ih less.toNat (by omega) hchild hreached rfl
      · exact hclosed binding (hscope.closed.closed _ _ hbinding) hreached

/-- The emitter ends exactly when the references that it comes to have finitely many fingerprints. -/
theorem founded_iff_finite {depth : Int} {activeReferences : List String} (hindex : ClosedIndex context.definitionIndex)
    (hscope : WellScoped context type bindings) :
    Search.Founded (placeGoal context) (.emitted type bindings depth activeReferences)
      ↔ (fingerprintsMet context (.emitted type bindings depth activeReferences)).Finite := by
  constructor
  · intro hfounded
    refine (hfounded.finite_reaches.image searchedFingerprint).subset ?_
    rintro key ⟨identity, typeArguments, scope, visitedReferences, hreach, rfl⟩
    exact ⟨_, hreach, rfl⟩
  · intro hfinite
    exact @founded_emitted context _ hfinite.toFinset _ _ _ _ hindex (fun key hkey => hfinite.mem_toFinset.mpr hkey) hscope .refl

end Ends

/-! ## Completeness -/

/-- For every closed analysis and every type in the scope of its bindings: the emitter ends, and throws only if the type
has no finite value, exactly when the references that it comes to have finitely many fingerprints and, for a type with a
finite value, `emit` needs no sample at a dead end. -/
theorem synthesis_complete_iff {context : SampleContext} {type : AnalyzedType} {options : SampleOptions}
    {representation : Representation} (hindex : ClosedIndex context.definitionIndex)
    (hscope : WellScoped context type options.typeVariableBindings) :
    SynthesisComplete context type options representation
      ↔ (fingerprintsMet context (options.start type)).Finite ∧
        (HasFiniteValue context options.typeVariableBindings type →
          ∀ place, Relation.ReflTransGen (Insists context) (options.start type) place → ¬ DeadEnd context place) := by
  rw [synthesisComplete_iff_succeeds hindex hscope, SampleOptions.start, ← founded_iff_finite hindex hscope]
  refine and_congr_right fun hfounded => ?_
  rw [succeeds_iff_no_dead_end ⟨_, _, _, _, rfl⟩ hfounded]

/-! ### A bad first constructor -/

/-- `data Loop = Loop with next : Loop`. -/
def loopDefinition : TypeDefinition :=
  .record (mainIdentity "Loop") [] [⟨"next", "next", .namedReference (mainIdentity "Loop") []⟩]

/-- `data Choice = Bad Loop | Good Int`. -/
def choiceDefinition : TypeDefinition :=
  .variant (mainIdentity "Choice") []
    [⟨"Bad", .namedReference (mainIdentity "Loop") []⟩, ⟨"Good", .primitive .int64 none⟩]

def choiceContext : SampleContext := ⟨[loopDefinition, choiceDefinition], []⟩

def choice : AnalyzedType := .namedReference (mainIdentity "Choice") []

theorem choiceContext_closed : ClosedIndex choiceContext.definitionIndex := closedIndex_of_entries _ (by decide +kernel)

theorem choice_scoped : WellScoped choiceContext choice SampleOptions.default.typeVariableBindings :=
  ⟨⟨fun _ _ h => nomatch h⟩, ClosedType.inScope (show ClosedType _ _ by unfold ClosedType; decide +kernel)⟩

/-- `Good 1` is a value. -/
theorem choice_hasFiniteValue : HasFiniteValue choiceContext SampleOptions.default.typeVariableBindings choice := by
  have hgood : (⟨"Good", .primitive .int64 none⟩ : VariantConstructor AnalyzedType)
      ∈ [⟨"Bad", .namedReference (mainIdentity "Loop") []⟩, ⟨"Good", .primitive .int64 none⟩] := by simp
  exact .reference (show choiceContext.definitionIndex.get _ = some choiceDefinition from rfl) (.variant hgood .primitive)

/-- The emitter insists on a loop, although the other constructor has a value. -/
theorem choice_not_synthesized :
    ¬ ∀ context type options representation, ClosedIndex context.definitionIndex →
      WellScoped context type options.typeVariableBindings → SynthesisComplete context type options representation := by
  intro h
  have hcomplete := h choiceContext choice .default .ledger choiceContext_closed choice_scoped
  have hsucceeds := ((synthesisComplete_iff_succeeds choiceContext_closed choice_scoped).mp hcomplete).2 choice_hasFiniteValue
  exact (Search.sound_status 5).failed _ rfl hsucceeds

theorem synthesis_complete_iff_choice :
    SynthesisComplete choiceContext choice .default .ledger
      ↔ (fingerprintsMet choiceContext (SampleOptions.default.start choice)).Finite ∧
        (HasFiniteValue choiceContext SampleOptions.default.typeVariableBindings choice →
          ∀ place, Relation.ReflTransGen (Insists choiceContext) (SampleOptions.default.start choice) place →
            ¬ DeadEnd choiceContext place) :=
  synthesis_complete_iff choiceContext_closed choice_scoped

end CantonSdk.DamlInterface.Samples
