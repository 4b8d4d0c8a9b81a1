import CantonSdk.DamlLf.Interpreter.Evaluator

/-!
# What every evaluation preserves

An evaluation changes its state by a few steps only: it makes a scope, sets a binding in a scope that it has made,
counts a frame, tells a step, emits an effect, and registers a create together with its effect. What all of them
preserve is preserved by every evaluation, whether it returns or throws, and however deep it is followed.
-/

set_option linter.all false

namespace CantonSdk.DamlLf.Interpreter

open CantonSdk.Base

/-- The state after a create was registered. -/
def EvaluatorState.afterCreate (state : EvaluatorState) (templateId : Option ReplayTemplateId) (payload : HostRaw) :
    EvaluatorState :=
  state.withContext ((takeContractId state.activeReplayContext).2.map fun context =>
    { context with
      createdContracts :=
        context.createdContracts.set (takeContractId state.activeReplayContext).1 ⟨payload, templateId⟩ })

/-- The state after an effect was emitted. -/
def EvaluatorState.afterEffect (state : EvaluatorState) (effect : ReplayEffect) (expression : Expression)
    (frame : RuntimeFrame) (openFrames : List Nat) : EvaluatorState :=
  (state.withContext (state.activeReplayContext.map (·.addEffect effect))).addStep
    ⟨.stateEffect, expression, frame, frame.scope.snapshotBindings state.scopes, none, some effect, openFrames⟩

theorem run_registerCreate {openFrames : List Nat} {state : EvaluatorState} (templateId : Option ReplayTemplateId)
    (payload : HostRaw) :
    registerCreate templateId payload openFrames state
      = (.ok (takeContractId state.activeReplayContext).1, state.afterCreate templateId payload) := rfl

/-- What is preserved by the steps of an evaluation, which sets bindings in new scopes only. -/
structure PreservedBySteps (R : EvaluatorState → Prop) (isNew : ScopeId → Prop) : Prop where
  addScope : ∀ state, R state → isNew state.nextScope ∧ R state.addScope
  setBinding : ∀ state scopeId name value, isNew scopeId → R state → R (state.setBinding scopeId name value)
  countFrame : ∀ state, R state → R state.countFrame
  addStep : ∀ state step, step.kind ≠ .stateEffect → step.stateEffect = none → R state → R (state.addStep step)
  effect : ∀ state effect expression frame openFrames, R state → R (state.afterEffect effect expression frame openFrames)
  create : ∀ state templateId payload effect expression frame openFrames, R state →
    R ((state.afterCreate templateId payload).afterEffect effect expression frame openFrames)

section Steps

variable {R : EvaluatorState → Prop} {isNew : ScopeId → Prop}

theorem keeps_liftHost {α : Type} (result : Except HostError α) : Keeps R (liftHost result) := by
  cases result with
  | ok value => exact keeps_pure
  | error error => exact keeps_throw

variable {compilation : EvaluatorCompilation} {builtinDispatch : BuiltinDispatch} {self : Evaluator}

section Lists

variable (hexpression : ∀ expression frame, Keeps R (self.evaluateExpression expression frame))

include hexpression

theorem keeps_evaluateAll (frame : RuntimeFrame) (expressions : List Expression) :
    Keeps R (evaluateAll self frame expressions) := by
  induction expressions with
  | nil => exact keeps_pure
  | cons first rest ih => exact (hexpression first frame).bind fun _ => ih.bind fun _ => keeps_pure

theorem keeps_evaluateFields (frame : RuntimeFrame) (fields : List (String × Expression)) :
    Keeps R (evaluateFields self frame fields) := by
  induction fields with
  | nil => exact keeps_pure
  | cons first rest ih => exact (hexpression first.2 frame).bind fun _ => ih.bind fun _ => keeps_pure

theorem keeps_evaluateList (front : List Expression) (tail : Option Expression) (frame : RuntimeFrame) :
    Keeps R (evaluateList self front tail frame) := by
  apply (keeps_evaluateAll hexpression frame front).bind
  intro values
  apply Keeps.bind
  · cases tail with
    | none => exact keeps_pure
    | some expression => exact (hexpression expression frame).bind fun _ => keeps_pure
  · exact fun _ => keeps_liftHost _

theorem keeps_evaluateContractId (contractId : Expression) (frame : RuntimeFrame) :
    Keeps R (evaluateContractId self contractId frame) :=
  (hexpression contractId frame).bind fun _ => keeps_liftHost _

end Lists

section Applications

variable (hfunction : ∀ value argumentValues, Keeps R (self.applyFunction value argumentValues))

include hfunction

theorem keeps_applyRemaining (value : Value) (remainingArguments : List Value) :
    Keeps R (applyRemaining self value remainingArguments) := by
  rw [applyRemaining]
  split
  · exact keeps_pure
  · exact hfunction value remainingArguments

theorem keeps_applyTwice (foldFunction first second : Value) : Keeps R (applyTwice self foldFunction first second) :=
  (hfunction foldFunction [first]).bind fun partiallyApplied => hfunction partiallyApplied [second]

end Applications

variable (hsteps : PreservedBySteps R isNew)

include hsteps

theorem keeps_onStep {kind : StepKind} (hkind : kind ≠ .stateEffect) (expression : Expression) (frame : RuntimeFrame)
    (value : Option Value) : Keeps R (onStep kind expression frame value none) :=
  fun _ state hstate => hsteps.addStep state _ hkind rfl hstate

theorem keeps_emitReplayEffect (effect : ReplayEffect) (expression : Expression) (frame : RuntimeFrame) :
    Keeps R (emitReplayEffect effect expression frame) :=
  fun openFrames state hstate => hsteps.effect state effect expression frame openFrames hstate

theorem preserved_setBindings {scopeId : ScopeId} (hnew : isNew scopeId) (bindings : List (String × Value))
    {state : EvaluatorState} (hstate : R state) : R (state.setBindings scopeId bindings) := by
  induction bindings generalizing state with
  | nil => exact hstate
  | cons first rest ih => exact ih (hsteps.setBinding state scopeId first.1 first.2 hnew hstate)

theorem keeps_deriveScopedFrame (frame : RuntimeFrame) (bindings : List (String × Value)) :
    Keeps R (deriveScopedFrame frame bindings) := by
  intro openFrames state hstate
  rw [run_deriveScopedFrame]
  have hscope := hsteps.addScope state hstate
  exact preserved_setBindings hsteps hscope.1 bindings hscope.2

/-- A derived frame has a new scope. -/
theorem isNew_of_derived {frame scopedFrame : RuntimeFrame} {bindings : List (String × Value)} {openFrames : List Nat}
    {state state' : EvaluatorState} (hstate : R state)
    (hrun : deriveScopedFrame frame bindings openFrames state = (.ok scopedFrame, state')) :
    isNew scopedFrame.scope.bindings := by
  rw [run_deriveScopedFrame] at hrun
  cases hrun
  exact (hsteps.addScope state hstate).1

theorem keeps_createFrame (definition : ValueDefinition) (identityOverride : Option FrameIdentity) :
    Keeps R (createFrame compilation definition identityOverride) := by
  refine (keeps_liftHost (frameIdentity compilation definition identityOverride)).bind ?_
  intro identity openFrames state hstate
  exact (hsteps.addScope _ (hsteps.countFrame state hstate)).2

variable (hexpression : ∀ expression frame, Keeps R (self.evaluateExpression expression frame))
  (hfunction : ∀ value argumentValues, Keeps R (self.applyFunction value argumentValues))

section Expressions

include hexpression

theorem keeps_evaluateBindings {scopedFrame : RuntimeFrame} (hnew : isNew scopedFrame.scope.bindings)
    (bindings : List (String × Expression)) : Keeps R (evaluateBindings self scopedFrame bindings) := by
  induction bindings with
  | nil => exact keeps_pure
  | cons first rest ih =>
      apply (hexpression first.2 scopedFrame).bind
      intro boundValue
      apply Keeps.bind (fun _ state hstate => hsteps.setBinding state _ first.1 boundValue hnew hstate)
      exact fun _ => ih

theorem keeps_evaluateBlock (bindings : List (String × Expression)) (body : Expression) (frame : RuntimeFrame) :
    Keeps R (evaluateBlock self bindings body frame) := by
  apply (keeps_deriveScopedFrame hsteps frame []).bindResult
  intro openFrames state scopedFrame state' hstate hrun hstate'
  have hnew := isNew_of_derived hsteps hstate hrun
  exact ((keeps_evaluateBindings hsteps hexpression hnew bindings).bind
    fun _ => hexpression body scopedFrame) openFrames state' hstate'

theorem keeps_evaluateCase (alternatives : List (CasePattern × Expression)) (frame : RuntimeFrame) (scrutinee : Value) :
    Keeps R (evaluateCase self alternatives frame scrutinee) := by
  rw [evaluateCase]
  split
  · exact keeps_liftHost _
  · split
    · exact hexpression _ frame
    · exact (keeps_deriveScopedFrame hsteps frame _).bind fun scopedFrame => hexpression _ scopedFrame

theorem keeps_evaluateCatch (catchVariableName : Option String) (catchExpression : Expression) (frame : RuntimeFrame)
    (failure : Failure) : Keeps R (evaluateCatch self catchVariableName catchExpression frame failure) := by
  cases failure with
  | thrown value =>
      exact (keeps_deriveScopedFrame hsteps frame _).bind fun scopedFrame => hexpression catchExpression scopedFrame
  | raised exception => exact keeps_throw
  | gaveUp => exact keeps_throw

theorem keeps_evaluateReplayLambda (expression : Expression) (frame : RuntimeFrame)
    (bindingValues : List ReplayBindingValue) (bindingMode : ReplayBindingMode) :
    Keeps R (evaluateReplayLambdaOrExpression self expression frame bindingValues bindingMode) := by
  cases expression with
  | lambda parameters body =>
      exact (keeps_deriveScopedFrame hsteps frame _).bind fun scopedFrame => hexpression body scopedFrame
  | _ => exact hexpression _ frame

theorem keeps_evaluateChoice (choice : ResolvedChoice) (contractId : String) (payload argument : HostRaw) :
    Keeps R (evaluateChoice compilation self choice contractId payload argument) :=
  (keeps_createFrame hsteps _ _).bind fun _ => keeps_evaluateReplayLambda hsteps hexpression _ _ _ _

theorem keeps_evaluateValueReference (reference : ValueReference) :
    Keeps R (evaluateValueReference compilation self reference) := by
  refine (keeps_liftHost (compilation.getValueDefinition reference)).bind fun definition => ?_
  apply (keeps_createFrame hsteps definition none).bind
  intro frame
  apply Keeps.withReader
  apply (keeps_onStep hsteps (by decide) _ frame none).bind
  intro _
  apply (hexpression definition.expression frame).bind
  intro value
  exact (keeps_onStep hsteps (by decide) _ frame (some value)).bind fun _ => keeps_pure

/-! ### Updates -/

theorem keeps_evaluateCreate (templateId : Option DamlLfTemplateId) (argument expression : Expression)
    (frame : RuntimeFrame) : Keeps R (evaluateCreate compilation self templateId argument expression frame) := by
  apply (hexpression argument frame).bind
  intro argumentValue openFrames state hstate
  exact hsteps.create state _ _ _ expression frame openFrames hstate

theorem keeps_evaluateFetch (templateId : Option DamlLfTemplateId) (contractId expression : Expression)
    (frame : RuntimeFrame) : Keeps R (evaluateFetch self templateId contractId expression frame) := by
  apply (keeps_evaluateContractId hexpression contractId frame).bind
  intro contractId
  refine keeps_get.bind fun state => ?_
  exact (keeps_emitReplayEffect hsteps _ expression frame).bind fun _ => keeps_pure

theorem keeps_evaluateFetchInterface (contractId expression : Expression) (frame : RuntimeFrame) :
    Keeps R (evaluateFetchInterface self contractId expression frame) := by
  apply (keeps_evaluateContractId hexpression contractId frame).bind
  intro contractId
  refine keeps_get.bind fun state => ?_
  rw [fetchKnownContract]
  split
  · exact keeps_liftHost _
  · exact (keeps_emitReplayEffect hsteps _ expression frame).bind fun _ => keeps_pure

theorem keeps_evaluateExercise (templateId : DamlLfTemplateId) (choiceName : String)
    (contractId argument expression : Expression) (frame : RuntimeFrame) :
    Keeps R (evaluateExercise compilation self templateId choiceName contractId argument expression frame) := by
  apply (keeps_evaluateContractId hexpression contractId frame).bind
  intro contractId
  apply (hexpression argument frame).bind
  intro argumentValue
  refine keeps_get.bind fun state => ?_
  rw [exerciseKnownContract.eq_def]
  split
  · exact keeps_liftHost _
  · refine (keeps_emitReplayEffect hsteps _ expression frame).bind fun _ => ?_
    split
    · exact keeps_throw
    · exact keeps_liftHost _
    · exact keeps_evaluateChoice hsteps hexpression _ _ _ _

theorem keeps_evaluateExerciseInterface (choiceName : String) (contractId argument expression : Expression)
    (frame : RuntimeFrame) :
    Keeps R (evaluateExerciseInterface compilation self choiceName contractId argument expression frame) := by
  apply (keeps_evaluateContractId hexpression contractId frame).bind
  intro contractId
  apply (hexpression argument frame).bind
  intro argumentValue
  refine keeps_get.bind fun state => ?_
  split
  · refine (keeps_emitReplayEffect hsteps _ expression frame).bind fun _ => ?_
    split
    · split
      · exact keeps_pure
      · exact keeps_throw
    · exact keeps_pure
    · exact keeps_evaluateChoice hsteps hexpression _ _ _ _
  · exact keeps_liftHost _

theorem keeps_evaluateUpdate (update : Update) (frame : RuntimeFrame) :
    Keeps R (evaluateUpdateExpression compilation self update frame) := by
  cases update with
  | pure value => exact hexpression value frame
  | embedExpr value => exact hexpression value frame
  | block bindings body => exact keeps_evaluateBlock hsteps hexpression bindings body frame
  | tryCatch body catchVariableName catchExpression =>
      exact (hexpression body frame).tryCatch fun failure => keeps_evaluateCatch hsteps hexpression _ _ frame failure
  | create templateId argument => exact keeps_evaluateCreate hsteps hexpression _ _ _ frame
  | fetch templateId contractId => exact keeps_evaluateFetch hsteps hexpression _ _ _ frame
  | fetchInterface contractId => exact keeps_evaluateFetchInterface hsteps hexpression _ _ frame
  | exercise templateId choiceName contractId argument =>
      cases templateId with
      | none => exact keeps_throw
      | some templateId =>
          cases choiceName with
          | none => exact keeps_throw
          | some choiceName => exact keeps_evaluateExercise hsteps hexpression _ _ _ _ _ frame
  | exerciseInterface choiceName contractId argument =>
      cases choiceName with
      | none => exact keeps_throw
      | some choiceName => exact keeps_evaluateExerciseInterface hsteps hexpression _ _ _ _ frame
  | getTime => exact fun _ _ hstate => hstate
  | ledgerTimeLt expression =>
      cases expression with
      | none => exact keeps_pure
      | some expression => exact (hexpression expression frame).bind fun _ => keeps_pure
  | unsupported kind => exact keeps_throw

end Expressions

include hexpression hfunction

theorem keeps_resolveExpressionValue (expression : Expression) (frame : RuntimeFrame) :
    Keeps R (resolveExpressionValue compilation self expression frame) := by
  cases expression with
  | textLiteral value => exact keeps_pure
  | numericLiteral value => exact keeps_pure
  | int64Literal value => exact keeps_pure
  | variableName name =>
      refine keeps_get.bind fun state => ?_
      split
      · exact keeps_pure
      · exact keeps_liftHost _
  | builtinConstructor constructor => cases constructor <;> exact keeps_pure
  | builtinFunction function => exact keeps_pure
  | lambda parameters body => exact keeps_pure
  | application function arguments =>
      apply (hexpression function frame).bind
      intro functionValue
      exact (keeps_evaluateAll hexpression frame arguments).bind fun _ => hfunction functionValue _
  | letExpression bindings body => exact keeps_evaluateBlock hsteps hexpression bindings body frame
  | recordConstruction fields => exact (keeps_evaluateFields hexpression frame fields).bind fun _ => keeps_pure
  | recordProjection fieldName record => exact (hexpression record frame).bind fun _ => keeps_liftHost _
  | recordUpdate fieldName record value =>
      apply (hexpression record frame).bind
      intro recordValue
      exact (keeps_liftHost _).bind fun _ => (hexpression value frame).bind fun _ => keeps_pure
  | throwExpression exception => exact (hexpression exception frame).bind fun _ => keeps_throw
  | variantConstruction constructorName argument => exact (hexpression argument frame).bind fun _ => keeps_pure
  | optionalConstruction value =>
      cases value with
      | none => exact keeps_pure
      | some value => exact hexpression value frame
  | enumConstruction constructorName => exact keeps_pure
  | listConstruction front tail => exact keeps_evaluateList hexpression front tail frame
  | updateExpression update => exact keeps_evaluateUpdate hsteps hexpression update frame
  | caseExpression scrutinee alternatives =>
      exact (hexpression scrutinee frame).bind fun value => keeps_evaluateCase hsteps hexpression alternatives frame value
  | valueReference reference => exact keeps_evaluateValueReference hsteps hexpression reference
  | unsupported nodeKind => cases nodeKind <;> exact keeps_throw

theorem keeps_evaluateExpression (expression : Expression) (frame : RuntimeFrame) :
    Keeps R (evaluateExpressionOrThrow compilation self expression frame) := by
  apply Keeps.withReader
  apply (keeps_onStep hsteps (by decide) expression frame none).bind
  intro _
  apply (keeps_resolveExpressionValue hsteps hexpression hfunction expression frame).bind
  intro value
  exact (keeps_onStep hsteps (by decide) expression frame (some value)).bind fun _ => keeps_pure

/-! ### Applying functions -/

theorem keeps_applyClosure (closure : Closure) (argumentValues : List Value) :
    Keeps R (applyClosure self closure argumentValues) := by
  apply (keeps_deriveScopedFrame hsteps closure.frame _).bind
  intro appliedFrame
  apply Keeps.bind
  · rw [evaluateSaturated]
    split
    · exact hexpression closure.body appliedFrame
    · exact keeps_pure
  · exact fun value => keeps_applyRemaining hfunction value _

theorem keeps_applyFunction (functionValue : Value) (argumentValues : List Value) :
    Keeps R (applyFunctionOrThrow builtinDispatch self functionValue argumentValues) := by
  rw [applyFunctionOrThrow.eq_def]
  split
  · exact keeps_applyClosure hsteps hexpression hfunction _ argumentValues
  · rw [applyFoldlBuiltin.eq_def]
    split
    · refine (keeps_liftHost _).bind fun listItems => ?_
      refine (keeps_foldlM (fun _ _ => keeps_applyTwice hfunction _ _ _) listItems _).bind fun result => ?_
      exact keeps_applyRemaining hfunction result _
    · exact keeps_pure
  · rw [applyFoldrBuiltin.eq_def]
    split
    · refine (keeps_liftHost _).bind fun listItems => ?_
      refine (keeps_foldlM (fun _ _ => keeps_applyTwice hfunction _ _ _) listItems.reverse _).bind fun result => ?_
      exact keeps_applyRemaining hfunction result _
    · exact keeps_pure
  · split
    · exact keeps_pure
    · exact keeps_throw
  · exact keeps_liftHost _

end Steps

/-- A whole evaluation preserves what its steps preserve. -/
theorem evaluator_keeps {R : EvaluatorState → Prop} {isNew : ScopeId → Prop} (hsteps : PreservedBySteps R isNew)
    (compilation : EvaluatorCompilation) (builtinDispatch : BuiltinDispatch) (fuel : Nat) :
    (∀ expression frame, Keeps R ((evaluator compilation builtinDispatch fuel).evaluateExpression expression frame)) ∧
      ∀ value argumentValues, Keeps R ((evaluator compilation builtinDispatch fuel).applyFunction value argumentValues) := by
  induction fuel with
  | zero => exact ⟨fun _ _ => keeps_throw, fun _ _ => keeps_throw⟩
  | succ fuel ih =>
      exact ⟨keeps_evaluateExpression hsteps ih.1 ih.2, keeps_applyFunction hsteps ih.1 ih.2⟩

end CantonSdk.DamlLf.Interpreter
