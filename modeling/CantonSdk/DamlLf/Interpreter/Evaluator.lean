import CantonSdk.DamlLf.Interpreter.FunctionMap
import CantonSdk.DamlLf.Interpreter.Inspection
import CantonSdk.DamlLf.Interpreter.ReplayState

/-!
# The evaluator

`DamlLfEvaluator`, one function of the source at a time. The functions call each other through `Evaluator`, which is
what an evaluation may call again, and a run is followed to a given depth of such calls: `evaluator` with no fuel gives
up, and with more fuel it goes on with the functions of the source.
-/

set_option linter.all false

namespace CantonSdk.DamlLf.Interpreter

open CantonSdk.Base

/-- What the evaluator asks of the compilation. -/
structure EvaluatorCompilation where
  getValueDefinition : ValueReference → Except HostError ValueDefinition
  getValueDefinitionIdentity : ValueDefinition → Except HostError FrameIdentity
  /-- `getRecordFieldsOrThrow` of the semantic model; there are none where it throws. -/
  getRecordFields : TypeConReference → Option (List DamlLfField)

/-- What an evaluation calls again. -/
structure Evaluator where
  evaluateExpression : Expression → RuntimeFrame → Evaluation Value
  applyFunction : Value → List Value → Evaluation Value

abbrev BuiltinDispatch := BuiltinFunction → List Value → List Value → Except Failure Value

/-- `DamlLfBuiltinDispatch`, which reads a function value as the host writes it. -/
def builtinDispatchOf (functionText : Closure → String) : BuiltinDispatch :=
  fun builtinFunction appliedArguments argumentValues =>
    (applyOrThrow functionText builtinFunction appliedArguments argumentValues).mapError (.raised ∘ .host)

section Functions

variable (compilation : EvaluatorCompilation) (builtinDispatch : BuiltinDispatch) (self : Evaluator)

def frameIdentity (definition : ValueDefinition) : Option FrameIdentity → Except HostError FrameIdentity
  | some identity => .ok identity
  | none => compilation.getValueDefinitionIdentity definition

def createFrame (definition : ValueDefinition) (identityOverride : Option FrameIdentity) : Evaluation RuntimeFrame := do
  let identity ← liftHost (frameIdentity compilation definition identityOverride)
  let state ← get
  modify EvaluatorState.countFrame
  let scope ← createScope []
  return ⟨state.nextFrameNumber, identity.packageId, identity.moduleName, definition, scope⟩

/-- The bindings of a block, each evaluated in the scope that the ones before it are already set in. -/
def evaluateBindings (scopedFrame : RuntimeFrame) : List (String × Expression) → Evaluation Unit
  | [] => return ()
  | (name, value) :: bindings => do
      let boundValue ← self.evaluateExpression value scopedFrame
      setBinding scopedFrame.scope name boundValue
      evaluateBindings scopedFrame bindings

/-! ### Applying functions -/

def applyRemaining (value : Value) (remainingArguments : List Value) : Evaluation Value :=
  if remainingArguments.isEmpty then return value else self.applyFunction value remainingArguments

/-- What a closure gives whose other parameters are bound in the frame. -/
def evaluateSaturated (remainingParameters : List String) (body : Expression) (appliedFrame : RuntimeFrame) :
    Evaluation Value :=
  if remainingParameters.isEmpty then self.evaluateExpression body appliedFrame
  else return .closure ⟨remainingParameters, body, appliedFrame⟩

def applyClosure (closure : Closure) (argumentValues : List Value) : Evaluation Value := do
  let boundParameterCount := min closure.parameters.length argumentValues.length
  let appliedFrame ← deriveScopedFrame closure.frame (closure.parameters.zip argumentValues)
  let intermediateValue ←
    evaluateSaturated self (closure.parameters.drop boundParameterCount) closure.body appliedFrame
  applyRemaining self intermediateValue (argumentValues.drop boundParameterCount)

/-- One turn of the loop of a fold. -/
def applyTwice (foldFunction first second : Value) : Evaluation Value := do
  let partiallyApplied ← self.applyFunction foldFunction [first]
  self.applyFunction partiallyApplied [second]

def applyFoldlBuiltin (applied argumentValues : List Value) : Evaluation Value :=
  match applied ++ argumentValues with
  | foldFunction :: accumulator :: list :: remainingArguments => do
      let listItems ← liftHost (readRuntimeListOrThrow list)
      let result ← listItems.foldlM (fun accumulator item => applyTwice self foldFunction accumulator item) accumulator
      applyRemaining self result remainingArguments
  | appliedArguments => return .builtin .foldl appliedArguments

def applyFoldrBuiltin (applied argumentValues : List Value) : Evaluation Value :=
  match applied ++ argumentValues with
  | foldFunction :: accumulator :: list :: remainingArguments => do
      let listItems ← liftHost (readRuntimeListOrThrow list)
      let result ←
        listItems.reverse.foldlM (fun accumulator item => applyTwice self foldFunction item accumulator) accumulator
      applyRemaining self result remainingArguments
  | appliedArguments => return .builtin .foldr appliedArguments

def applyFunctionOrThrow (functionValue : Value) (argumentValues : List Value) : Evaluation Value :=
  match functionValue with
  | .closure closure => applyClosure self closure argumentValues
  | .builtin .foldl applied => applyFoldlBuiltin self applied argumentValues
  | .builtin .foldr applied => applyFoldrBuiltin self applied argumentValues
  | .builtin builtinFunction applied =>
      match builtinDispatch builtinFunction applied argumentValues with
      | .ok value => return value
      | .error failure => throw failure
  | value => liftHost (.error (.validation s!"daml lf expression is not callable ({value.kind})"))

/-! ### Case expressions and records -/

def evaluateCase (alternatives : List (CasePattern × Expression)) (frame : RuntimeFrame) (scrutinee : Value) :
    Evaluation Value :=
  match alternatives.find? fun alternative => matchesCaseAlternative alternative.1 scrutinee with
  | none => liftHost (.error (noMatchingAlternative frame.definition.name alternatives scrutinee))
  | some (pattern, body) =>
      match alternativeBindings pattern scrutinee with
      | none => self.evaluateExpression body frame
      | some bindings => do
          let scopedFrame ← deriveScopedFrame frame bindings
          self.evaluateExpression body scopedFrame

/-! ### Updates -/

/-- A value that a parameter of an entrypoint or a choice is bound to. -/
structure ReplayBindingValue where
  value : HostRaw
  contractId : Option String

def ReplayBindingValue.hydrate (bindingValue : ReplayBindingValue) : Value :=
  hydrateRuntimeValue bindingValue.value bindingValue.contractId

/-- The name of a parameter with its value, when there are both. -/
def bindParameter (parameter : Option String) (value : Option Value) : List (String × Value) :=
  match parameter, value with
  | some name, some value => [(name, value)]
  | _, _ => []

/-- The bindings that `evaluateReplayLambdaOrExpressionOrThrow` sets. -/
def replayBindings (bindingMode : ReplayBindingMode) (parameters : List String)
    (bindingValues : List ReplayBindingValue) : List (String × Value) :=
  let contractId := (bindingValues[0]?.bind (·.contractId)).map RuntimeValue.contractId
  let hydrated (index : Nat) := bindingValues[index]?.map ReplayBindingValue.hydrate
  match bindingMode with
  | .templateChoice =>
      bindParameter parameters[0]? contractId ++ bindParameter parameters[1]? (hydrated 0)
        ++ bindParameter parameters[2]? (hydrated 1)
  | .exerciseWrapper =>
      bindParameter parameters.reverse[1]? contractId ++ bindParameter parameters.getLast? (hydrated 1)
  | .createWrapper => bindParameter parameters.getLast? (hydrated 0)
  | .standard => parameters.zip (bindingValues.map ReplayBindingValue.hydrate)

def evaluateReplayLambdaOrExpression (expression : Expression) (frame : RuntimeFrame)
    (bindingValues : List ReplayBindingValue) (bindingMode : ReplayBindingMode) : Evaluation Value :=
  match expression with
  | .lambda parameters body => do
      let scopedFrame ← deriveScopedFrame frame (replayBindings bindingMode parameters bindingValues)
      self.evaluateExpression body scopedFrame
  | _ => self.evaluateExpression expression frame

def toReplayTemplateId (templateId : DamlLfTemplateId) : ReplayTemplateId :=
  ⟨some templateId.packageId, some templateId.moduleName, some templateId.templateName⟩

def toTypeConReference (templateId : DamlLfTemplateId) : TypeConReference :=
  ⟨templateId.packageId, templateId.moduleName, templateId.templateName⟩

/-- The contract that was created in the replay, and the one that the environment has. -/
def knownContracts (context : Option ReplayContext) (contractId : String) : Option KnownContract × Option KnownContract :=
  (context.bind fun context => context.createdContracts.get contractId,
    context.bind fun context => (context.environment.contracts.get contractId).map fun contract =>
      ⟨contract.payload.map Empty.elim, contract.templateId⟩)

def payloadOf (contract : Option KnownContract) : HostRaw := (contract.map (·.payload)).getD .undefined

def knownPayload (context : Option ReplayContext) (contractId : String) : HostRaw :=
  let contracts := knownContracts context contractId
  (payloadOf contracts.1).orElse (payloadOf contracts.2)

def knownTemplateId (context : Option ReplayContext) (contractId : String) : Option ReplayTemplateId :=
  let contracts := knownContracts context contractId
  (contracts.1.bind (·.templateId)).or (contracts.2.bind (·.templateId))

/-- The contract id of the next create, and the context after it, where there is one. -/
def takeContractId (context : Option ReplayContext) : String × Option ReplayContext :=
  let nextSyntheticContractIdNumber := (context.map (·.nextSyntheticContractIdNumber)).getD 1
  let observedContractId := context.bind fun context => context.observedCreateContractIds[context.nextObservedCreateIndex]?
  (observedContractId.getD s!"created-{nextSyntheticContractIdNumber}",
    context.map fun context =>
      { context with
        nextSyntheticContractIdNumber := nextSyntheticContractIdNumber + 1
        nextObservedCreateIndex := context.nextObservedCreateIndex + 1 })

def registerCreate (templateId : Option ReplayTemplateId) (payload : HostRaw) : Evaluation String := do
  let state ← get
  let (contractId, context) := takeContractId state.activeReplayContext
  modify fun state =>
    state.withContext (context.map fun context =>
      { context with createdContracts := context.createdContracts.set contractId ⟨payload, templateId⟩ })
  return contractId

def evaluateCreate (templateId : Option DamlLfTemplateId) (argument expression : Expression) (frame : RuntimeFrame) :
    Evaluation Value := do
  let argumentValue ← self.evaluateExpression argument frame
  let payload := normalizeSemanticRecordValue compilation.getRecordFields (unwrapRuntimeValue argumentValue)
    (templateId.map toTypeConReference)
  let contractId ← registerCreate (templateId.map toReplayTemplateId) payload
  emitReplayEffect ⟨.create, some contractId, templateId.map toReplayTemplateId, none, .undefined, payload⟩ expression frame
  return .contractId contractId

/-- Evaluates an expression for a contract id. -/
def evaluateContractId (contractId : Expression) (frame : RuntimeFrame) : Evaluation String := do
  let value ← self.evaluateExpression contractId frame
  liftHost (readContractId value)

def evaluateFetch (templateId : Option DamlLfTemplateId) (contractId expression : Expression) (frame : RuntimeFrame) :
    Evaluation Value := do
  let contractId ← evaluateContractId self contractId frame
  let state ← get
  emitReplayEffect ⟨.fetch, some contractId, templateId.map toReplayTemplateId, none, .undefined, .undefined⟩ expression frame
  return hydrateRuntimeValue (knownPayload state.activeReplayContext contractId) none

/-- The rest of a fetch through an interface, once it is known what the contract holds. -/
def fetchKnownContract (contractId : String) (payload : HostRaw) (templateId : Option ReplayTemplateId)
    (expression : Expression) (frame : RuntimeFrame) : Evaluation Value :=
  if payload.isUndefined then
    liftHost (.error (.validation s!"daml lf fetch-interface update could not hydrate contract '{contractId}'"))
  else do
    emitReplayEffect ⟨.fetch, some contractId, templateId, none, .undefined, .undefined⟩ expression frame
    return hydrateRuntimeValue payload none

def evaluateFetchInterface (contractId expression : Expression) (frame : RuntimeFrame) : Evaluation Value := do
  let contractId ← evaluateContractId self contractId frame
  let state ← get
  fetchKnownContract contractId (knownPayload state.activeReplayContext contractId)
    (knownTemplateId state.activeReplayContext contractId) expression frame

/-- The choice that the resolver of the environment finds, if there is a resolver. -/
def resolveChoiceDefinition (context : Option ReplayContext) (templateId : DamlLfTemplateId) (choiceName : String) :
    Except HostException (Option ResolvedChoice) :=
  match context.bind fun context => context.environment.resolveChoiceDefinition with
  | some resolve => (resolve templateId choiceName).map some
  | none => .ok none

def evaluateChoice (choice : ResolvedChoice) (contractId : String) (payload argument : HostRaw) : Evaluation Value := do
  let frame ← createFrame compilation choice.definition choice.frameIdentity
  evaluateReplayLambdaOrExpression self choice.replayExpression frame [⟨payload, some contractId⟩, ⟨argument, none⟩]
    choice.replayBindingMode

/-- The exercise of a choice on a contract whose payload is known, if it is known. -/
def exerciseKnownContract (templateId : DamlLfTemplateId) (choiceName contractId : String) (payload argument : HostRaw)
    (resolved : Except HostException (Option ResolvedChoice)) (expression : Expression) (frame : RuntimeFrame) :
    Evaluation Value :=
  if payload.isUndefined then
    liftHost (.error (.validation s!"daml lf exercise update could not hydrate contract '{contractId}'"))
  else do
    emitReplayEffect ⟨.exercise, some contractId, some (toReplayTemplateId templateId), some choiceName, argument, .undefined⟩
      expression frame
    match resolved with
    | .error exception => throw (.raised exception)
    | .ok none => liftHost (.error (.validation "daml lf exercise update requires a replay definition resolver"))
    | .ok (some choice) => evaluateChoice compilation self choice contractId payload argument

def evaluateExercise (templateId : DamlLfTemplateId) (choiceName : String) (contractId argument expression : Expression)
    (frame : RuntimeFrame) : Evaluation Value := do
  let contractId ← evaluateContractId self contractId frame
  let argumentValue ← self.evaluateExpression argument frame
  let state ← get
  exerciseKnownContract compilation self templateId choiceName contractId
    (knownPayload state.activeReplayContext contractId) (unwrapRuntimeValue argumentValue)
    (resolveChoiceDefinition state.activeReplayContext templateId choiceName) expression frame

/-- The exception that says that a choice has no body to evaluate. -/
def lacksExecutableMetadata : HostException → Bool
  | .replaySourceMap message => decide ("missing executable metadata for choice".toList <:+: message.toList)
  | .host _ => false

/-- The template of a contract, as the resolver is asked for it. -/
def toTemplateId (templateId : ReplayTemplateId) : DamlLfTemplateId :=
  ⟨templateId.packageId.getD "", templateId.moduleName.getD "", templateId.entityName.getD ""⟩

/-- The exercise of a choice through an interface; a choice that is not found does nothing. -/
def exerciseKnownInterface (templateId : ReplayTemplateId) (choiceName contractId : String) (payload argument : HostRaw)
    (resolved : Except HostException (Option ResolvedChoice)) (expression : Expression) (frame : RuntimeFrame) :
    Evaluation Value := do
  emitReplayEffect ⟨.exercise, some contractId, some templateId, some choiceName, argument, .undefined⟩ expression frame
  match resolved with
  | .error exception =>
      if lacksExecutableMetadata exception then return hydrateRuntimeValue (.object []) none
      else throw (.raised exception)
  | .ok none => return hydrateRuntimeValue (.object []) none
  | .ok (some choice) => evaluateChoice compilation self choice contractId payload argument

def evaluateExerciseInterface (choiceName : String) (contractId argument expression : Expression) (frame : RuntimeFrame) :
    Evaluation Value := do
  let contractId ← evaluateContractId self contractId frame
  let argumentValue ← self.evaluateExpression argument frame
  let state ← get
  match (knownPayload state.activeReplayContext contractId).isUndefined,
      knownTemplateId state.activeReplayContext contractId with
  | false, some templateId =>
      exerciseKnownInterface compilation self templateId choiceName contractId
        (knownPayload state.activeReplayContext contractId) (unwrapRuntimeValue argumentValue)
        (resolveChoiceDefinition state.activeReplayContext (toTemplateId templateId) choiceName) expression frame
  | _, _ =>
      liftHost (.error (.validation s!"daml lf exercise-interface update could not hydrate contract '{contractId}'"))

/-- What is evaluated when an exception of the program is caught. -/
def evaluateCatch (catchVariableName : Option String) (catchExpression : Expression) (frame : RuntimeFrame) :
    Failure → Evaluation Value
  | .thrown value => do
      let scopedFrame ← deriveScopedFrame frame (binding catchVariableName value)
      self.evaluateExpression catchExpression scopedFrame
  | failure => throw failure

def evaluateBlock (bindings : List (String × Expression)) (body : Expression) (frame : RuntimeFrame) :
    Evaluation Value := do
  let scopedFrame ← deriveScopedFrame frame []
  evaluateBindings self scopedFrame bindings
  self.evaluateExpression body scopedFrame

def evaluateUpdateExpression (update : Update) (frame : RuntimeFrame) : Evaluation Value :=
  let expression := Expression.updateExpression update
  match update with
  | .pure value => self.evaluateExpression value frame
  | .embedExpr value => self.evaluateExpression value frame
  | .block bindings body => evaluateBlock self bindings body frame
  | .tryCatch body catchVariableName catchExpression =>
      tryCatch (self.evaluateExpression body frame) (evaluateCatch self catchVariableName catchExpression frame)
  | .create templateId argument => evaluateCreate compilation self templateId argument expression frame
  | .fetch templateId contractId => evaluateFetch self templateId contractId expression frame
  | .fetchInterface contractId => evaluateFetchInterface self contractId expression frame
  | .exercise (some templateId) (some choiceName) contractId argument =>
      evaluateExercise compilation self templateId choiceName contractId argument expression frame
  | .exercise _ _ _ _ =>
      liftHost (.error (.validation "daml lf exercise update is missing its template or choice"))
  | .exerciseInterface (some choiceName) contractId argument =>
      evaluateExerciseInterface compilation self choiceName contractId argument expression frame
  | .exerciseInterface none _ _ =>
      liftHost (.error (.validation "daml lf exercise-interface update is missing its choice"))
  | .getTime => do
      let state ← get
      return .text ((state.activeReplayContext.map (·.environment.offset)).getD "")
  | .ledgerTimeLt none => return .unit
  | .ledgerTimeLt (some value) => do
      let _ ← self.evaluateExpression value frame
      return .unit
  | .unsupported kind => liftHost (.error (.validation s!"daml lf update expression '{kind}' is not supported yet"))

/-! ### Expressions -/

def evaluateFields (frame : RuntimeFrame) : List (String × Expression) → Evaluation (List (String × Value))
  | [] => return []
  | (name, value) :: fields => do
      let fieldValue ← self.evaluateExpression value frame
      let rest ← evaluateFields frame fields
      return (name, fieldValue) :: rest

def evaluateAll (frame : RuntimeFrame) : List Expression → Evaluation (List Value)
  | [] => return []
  | expression :: expressions => do
      let value ← self.evaluateExpression expression frame
      let rest ← evaluateAll frame expressions
      return value :: rest

def evaluateTail (frame : RuntimeFrame) : Option Expression → Evaluation HostRaw
  | none => return .array []
  | some expression => do
      let value ← self.evaluateExpression expression frame
      return unwrapRuntimeValue value

def evaluateList (front : List Expression) (tail : Option Expression) (frame : RuntimeFrame) : Evaluation Value := do
  let values ← evaluateAll self frame front
  let tailValue ← evaluateTail self frame tail
  liftHost (constructList (values.map unwrapRuntimeValue) tailValue)

/-- A value reference is evaluated in a frame of its own, between a call and a return. -/
def evaluateValueReference (reference : ValueReference) : Evaluation Value := do
  let definition ← liftHost (compilation.getValueDefinition reference)
  let frame ← createFrame compilation definition none
  withReader (· ++ [frame.frameId]) do
    onStep .call (.valueReference reference) frame none none
    let value ← self.evaluateExpression definition.expression frame
    onStep .return (.valueReference reference) frame (some value) none
    return value

def resolveExpressionValue (expression : Expression) (frame : RuntimeFrame) : Evaluation Value :=
  match expression with
  | .textLiteral value => return .text value
  | .numericLiteral value => return .numeric value
  | .int64Literal value => return .int64 value
  | .variableName name => do
      let state ← get
      match frame.scope.getBinding state.scopes name with
      | some value => return value
      | none => liftHost (.error (.validation s!"daml lf variable '{name}' is not bound"))
  | .builtinConstructor .true => return .boolean true
  | .builtinConstructor .false => return .boolean false
  | .builtinConstructor .unit => return .unit
  | .builtinFunction function => return .builtin function []
  | .lambda parameters body => return .closure ⟨parameters, body, frame⟩
  | .application function arguments => do
      let functionValue ← self.evaluateExpression function frame
      let argumentValues ← evaluateAll self frame arguments
      self.applyFunction functionValue argumentValues
  | .letExpression bindings body => evaluateBlock self bindings body frame
  | .recordConstruction fields => do
      let values ← evaluateFields self frame fields
      return createRecordRuntimeValue (assigned values)
  | .recordProjection fieldName record => do
      let recordValue ← self.evaluateExpression record frame
      liftHost (projectField compilation.getRecordFields recordValue fieldName)
  | .recordUpdate fieldName record value => do
      let recordValue ← self.evaluateExpression record frame
      let updated ← liftHost (updateField compilation.getRecordFields recordValue fieldName)
      let nextValue ← self.evaluateExpression value frame
      return updated nextValue
  | .throwExpression exception => do
      let value ← self.evaluateExpression exception frame
      throw (.thrown value)
  | .variantConstruction constructorName argument => do
      let value ← self.evaluateExpression argument frame
      return hydrateRuntimeValue
        (.object [("constructor", .string constructorName), ("value", unwrapRuntimeValue value)]) none
  | .optionalConstruction none => return .unit
  | .optionalConstruction (some value) => self.evaluateExpression value frame
  | .enumConstruction constructorName => return hydrateRuntimeValue (.string constructorName) none
  | .listConstruction front tail => evaluateList self front tail frame
  | .updateExpression update => evaluateUpdateExpression compilation self update frame
  | .caseExpression scrutinee alternatives => do
      let value ← self.evaluateExpression scrutinee frame
      evaluateCase self alternatives frame value
  | .valueReference reference => evaluateValueReference compilation self reference
  | .unsupported none => liftHost (.error (.validation "daml lf expression is not supported yet"))
  | .unsupported (some nodeKind) =>
      liftHost (.error (.validation s!"daml lf expression '{nodeKind}' is not supported yet"))

def evaluateExpressionOrThrow (expression : Expression) (frame : RuntimeFrame) : Evaluation Value :=
  withReader (· ++ [frame.frameId]) do
    onStep .enterExpression expression frame none none
    let value ← resolveExpressionValue compilation self expression frame
    onStep .exitExpression expression frame (some value) none
    return value

/-- One more call, followed by those that it makes. -/
def nextEvaluator : Evaluator where
  evaluateExpression := evaluateExpressionOrThrow compilation self
  applyFunction := applyFunctionOrThrow builtinDispatch self

/-- The functions of the source, followed through calls of the given depth. -/
def evaluator : Nat → Evaluator
  | 0 => ⟨fun _ _ => throw .gaveUp, fun _ _ => throw .gaveUp⟩
  | fuel + 1 => nextEvaluator compilation builtinDispatch (evaluator fuel)

/-! ### The entrypoint -/

def ReplayContext.initial (environment : ReplayEnvironment) : ReplayContext :=
  ⟨environment, [], KeyedMap.empty, environment.observedCreateContractIds, 1, 0⟩

def isUpdateDrivenEntrypointExpression : Expression → Bool
  | .updateExpression _ => true
  | .lambda _ body => isUpdateDrivenEntrypointExpression body
  | .letExpression _ body => isUpdateDrivenEntrypointExpression body
  | _ => false

def createReplayEffect (environment : ReplayEnvironment) : ReplayEffect :=
  let entrypoint := environment.entrypoint
  match entrypoint.kind with
  | .exercise =>
      ⟨.exercise, entrypoint.contractId, entrypoint.templateId, entrypoint.choice, entrypoint.argument.map Empty.elim,
        .undefined⟩
  | .create => ⟨.create, none, entrypoint.templateId, none, .undefined, entrypoint.argument.map Empty.elim⟩

def resolveEntrypointBindingValues (environment : ReplayEnvironment) : List ReplayBindingValue :=
  let entrypoint := environment.entrypoint
  let argument := entrypoint.argument.map Empty.elim
  let argumentValues : List ReplayBindingValue := if argument.isUndefined then [] else [⟨argument, none⟩]
  match entrypoint.kind with
  | .create => argumentValues
  | .exercise =>
      let contractPayload : HostRaw :=
        match entrypoint.contractId.bind environment.contracts.get with
        | some contract => contract.payload.map Empty.elim
        | none => .undefined
      (if contractPayload.isUndefined then [] else [⟨contractPayload, entrypoint.contractId⟩]) ++ argumentValues

/-- Whether the effect of the entrypoint itself is emitted before it is evaluated. -/
def emitsEntrypointEffect (environment : ReplayEnvironment) (replayExpression : Expression) : Bool :=
  !isUpdateDrivenEntrypointExpression replayExpression
    || environment.entrypoint.kind = .exercise && environment.entrypointBindingMode = some .templateChoice

/-- `evaluateReplayEntrypointOrThrow`, without the effects that it returns from the state. -/
def evaluateReplayEntrypoint (definition : ValueDefinition) (environment : ReplayEnvironment) : Evaluation Value := do
  let frame ← createFrame compilation definition none
  let replayExpression := environment.entrypointExpression.getD definition.expression
  modify fun state =>
    state.withContext (some (ReplayContext.initial environment))
  withReader (· ++ [frame.frameId]) do
    if emitsEntrypointEffect environment replayExpression then
      emitReplayEffect (createReplayEffect environment) replayExpression frame
    evaluateReplayLambdaOrExpression self replayExpression frame (resolveEntrypointBindingValues environment)
      (environment.entrypointBindingMode.getD .standard)

end Functions

/-! ### Where an evaluation starts -/

/-- A compilation without definitions and types. -/
def emptyCompilation : EvaluatorCompilation where
  getValueDefinition := fun reference =>
    .error (.validation s!"unknown value definition '{reference.definitionName}'")
  getValueDefinitionIdentity := fun _ => .ok ⟨"main", "Main"⟩
  getRecordFields := fun _ => none

/-- The environment of a create without an argument, on a ledger without contracts. -/
def emptyEnvironment : ReplayEnvironment where
  offset := "0"
  entrypoint := ⟨.create, none, none, none, .undefined⟩
  contracts := KeyedMap.empty
  resolveChoiceDefinition := none
  entrypointExpression := none
  entrypointBindingMode := none
  observedCreateContractIds := []

/-- The state of a new evaluator, with the map of the scope of one frame. -/
def EvaluatorState.initial (context : Option ReplayContext) : EvaluatorState :=
  ⟨fun _ => KeyedMap.empty, 1, 1, context, []⟩

/-- The first frame. -/
def RuntimeFrame.initial : RuntimeFrame := ⟨0, "main", "Main", ⟨"main", .unsupported none⟩, ⟨0, []⟩⟩

end CantonSdk.DamlLf.Interpreter
