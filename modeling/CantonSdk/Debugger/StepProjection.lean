import CantonSdk.DamlLf.Interpreter.ReplayState

/-!
# From trace steps to the steps of a session

What the loader of replay sessions makes of the steps that the evaluator tells: the stack of each step, found from the
frames of the steps before it, and, when there is a source mapper, the steps that are kept. The places of expressions
and of definitions in source files are what the source mapper says of a trace step.
-/

set_option linter.all false

namespace CantonSdk.Debugger

open CantonSdk.Base CantonSdk.DamlLf.Interpreter

inductive SourceMappingPrecision
  | exact
  | fallback
  deriving DecidableEq

structure ReplaySourceLocation where
  path : Option String
  startLine : Option Nat
  startColumn : Option Nat
  endLine : Option Nat
  endColumn : Option Nat
  precision : SourceMappingPrecision
  deriving DecidableEq

/-- What the loader asks the source mapper for. -/
structure SourceMapper where
  /-- `createSourceLocation`, from the place of the expression or, for an effect, of the definition. -/
  sourceLocation : TraceStep → Option ReplaySourceLocation
  /-- The label of the template and choice of the definition, or else of what stands around the place. -/
  executableFrameLabel : TraceStep → Option String
  /-- `getValueDefinitionOrThrow`, or nothing when it throws. -/
  valueDefinition : ValueReference → Option ValueDefinition

/-- What the loader is made with, and how it prints a value. -/
structure LoaderDependencies where
  sourceMapper : Option SourceMapper
  stringifyRuntimeValue : Value → String

structure ReplayStackFrame where
  frameId : Nat
  name : String
  deriving DecidableEq

/-- A variable of a scope. -/
structure ReplayVariable where
  name : String
  kind : String
  value : String
  contractType : Option String
  deriving DecidableEq

structure ReplayStep where
  stepId : String
  stepIndex : Nat
  phase : StepKind
  stackFrames : List ReplayStackFrame
  locals : List ReplayVariable
  sourceLocation : Option ReplaySourceLocation
  deriving DecidableEq

/-- `IProjectedReplayStep`. -/
structure ProjectedReplayStep where
  step : ReplayStep
  traceStep : TraceStep

/-! ## Names of frames -/

def isGeneratedHelperDefinitionName (definitionName : String) : Bool := definitionName.startsWith "$"

def formatGeneratedHelperLabel (context : String) : String := "generated helper from " ++ context

def formatReplayEffectFrameLabel (effect : Option DamlLf.Interpreter.ReplayEffect) : Option String :=
  match effect with
  | none => none
  | some effect =>
      match effect.templateId.bind (·.entityName), effect.kind, effect.choice with
      | some entityName, .create, _ => some (entityName ++ ".create")
      | some entityName, .exercise, some choice => some (entityName ++ "." ++ choice)
      | _, _, _ => none

def resolveFrameName (sourceMapper : Option SourceMapper) (traceStep : TraceStep) : String :=
  let definitionName := traceStep.frame.definition.name
  let label :=
    match sourceMapper with
    | none => definitionName
    | some sourceMapper =>
        match sourceMapper.executableFrameLabel traceStep with
        | some label => label
        | none => (formatReplayEffectFrameLabel traceStep.stateEffect).getD definitionName
  if isGeneratedHelperDefinitionName definitionName then formatGeneratedHelperLabel label else label

/-! ## Types of contracts -/

def formatTemplateType (templateId : Option DamlLf.Interpreter.ReplayTemplateId) : Option String :=
  match templateId with
  | none => none
  | some templateId =>
      match templateId.moduleName, templateId.entityName with
      | some moduleName, some entityName => some (moduleName ++ ":" ++ entityName)
      | _, entityName => entityName

def createContractTypeIndex (contracts : KeyedMap String HydratedContract) : KeyedMap String String :=
  KeyedMap.ofEntries (contracts.entries.filterMap fun entry =>
    (formatTemplateType entry.2.templateId).map fun contractType => (entry.1, contractType))

def rememberStateEffectContractType (contractTypeById : KeyedMap String String) (effect : DamlLf.Interpreter.ReplayEffect) :
    KeyedMap String String :=
  match effect.kind, effect.contractId, formatTemplateType effect.templateId with
  | .create, some contractId, some contractType => contractTypeById.set contractId contractType
  | _, _, _ => contractTypeById

def resolveRuntimeValueContractType (value : Value) (contractTypeById : KeyedMap String String) : Option String :=
  match value with
  | .contractId contractId => contractTypeById.get contractId
  | .contractIds contractIds => contractIds.findSome? contractTypeById.get
  | _ => none

/-- The variables that `rememberFrameScope` keeps for the frame of a step. -/
def frameVariables (dependencies : LoaderDependencies) (contractTypeById : KeyedMap String String)
    (traceStep : TraceStep) : List ReplayVariable :=
  traceStep.locals.map fun binding =>
    ⟨binding.1, binding.2.kind, dependencies.stringifyRuntimeValue binding.2,
      resolveRuntimeValueContractType binding.2 contractTypeById⟩

/-! ## The stack of a step -/

structure ProjectionState where
  activeFrames : List ReplayStackFrame
  frameExpressionDepth : KeyedMap Nat Nat
  frameCallDepth : KeyedMap Nat Nat
  contractTypeById : KeyedMap String String

/-- Goes back to the frame when it is on the stack, and puts it on top otherwise. -/
def pushFrameIfMissing (activeFrames : List ReplayStackFrame) (frame : ReplayStackFrame) : List ReplayStackFrame :=
  match activeFrames.findIdx? (·.frameId == frame.frameId) with
  | some activeIndex => activeFrames.take (activeIndex + 1)
  | none => activeFrames ++ [frame]

def popFrameIfTop (activeFrames : List ReplayStackFrame) (frameId : Nat) : List ReplayStackFrame :=
  if activeFrames.getLast?.map (·.frameId) = some frameId then activeFrames.dropLast else activeFrames

/-- `depth.set(frameId, (depth.get(frameId) ?? 0) + 1)`. -/
def increaseDepth (depth : KeyedMap Nat Nat) (frameId : Nat) : KeyedMap Nat Nat :=
  depth.set frameId ((depth.get frameId).getD 0 + 1)

/-- A depth that falls to zero is forgotten. -/
def decreaseDepth (depth : KeyedMap Nat Nat) (frameId : Nat) : KeyedMap Nat Nat :=
  let nextDepth := (depth.get frameId).getD 1 - 1
  if nextDepth = 0 then depth.delete frameId else depth.set frameId nextDepth

def prepareStackForStep (dependencies : LoaderDependencies) (state : ProjectionState) (traceStep : TraceStep) :
    ProjectionState :=
  let frame := ⟨traceStep.frame.frameId, resolveFrameName dependencies.sourceMapper traceStep⟩
  let prepared := { state with activeFrames := pushFrameIfMissing state.activeFrames frame }
  match traceStep.kind with
  | .call => { prepared with frameCallDepth := increaseDepth state.frameCallDepth traceStep.frame.frameId }
  | .enterExpression =>
      { prepared with frameExpressionDepth := increaseDepth state.frameExpressionDepth traceStep.frame.frameId }
  | _ => prepared

def finalizeStackForStep (state : ProjectionState) (traceStep : TraceStep) : ProjectionState :=
  let frameId := traceStep.frame.frameId
  match traceStep.kind with
  | .exitExpression =>
      let frameExpressionDepth := decreaseDepth state.frameExpressionDepth frameId
      if frameExpressionDepth.get frameId = none ∧ (state.frameCallDepth.get frameId).getD 0 = 0 then
        { state with frameExpressionDepth, activeFrames := popFrameIfTop state.activeFrames frameId }
      else { state with frameExpressionDepth }
  | .return =>
      { state with
        frameCallDepth := decreaseDepth state.frameCallDepth frameId
        activeFrames := popFrameIfTop state.activeFrames frameId }
  | _ => state

def rememberStateEffect (state : ProjectionState) (traceStep : TraceStep) : ProjectionState :=
  match traceStep.stateEffect with
  | none => state
  | some effect => { state with contractTypeById := rememberStateEffectContractType state.contractTypeById effect }

def projectStep (dependencies : LoaderDependencies) (prepared : ProjectionState) (stepIndex : Nat)
    (traceStep : TraceStep) : ReplayStep where
  stepId := "step-" ++ toString stepIndex
  stepIndex := stepIndex
  phase := traceStep.kind
  stackFrames := prepared.activeFrames
  locals := frameVariables dependencies prepared.contractTypeById traceStep
  sourceLocation := dependencies.sourceMapper.bind (·.sourceLocation traceStep)

/-- The steps from the given index on. -/
def projectStepsFrom (dependencies : LoaderDependencies) (state : ProjectionState) (stepIndex : Nat) :
    List TraceStep → List ProjectedReplayStep
  | [] => []
  | traceStep :: rest =>
      let prepared := prepareStackForStep dependencies state traceStep
      ⟨projectStep dependencies prepared stepIndex traceStep, traceStep⟩
        :: projectStepsFrom dependencies (finalizeStackForStep (rememberStateEffect prepared traceStep) traceStep)
          (stepIndex + 1) rest

def projectRawReplaySteps (dependencies : LoaderDependencies) (contracts : KeyedMap String HydratedContract)
    (traceSteps : List TraceStep) : List ProjectedReplayStep :=
  projectStepsFrom dependencies ⟨[], KeyedMap.empty, KeyedMap.empty, createContractTypeIndex contracts⟩ 0 traceSteps

/-! ## The steps that are kept -/

def isMeaningfulDefinitionExpression : Expression → Bool
  | .application _ _ => true
  | .letExpression _ _ => true
  | .caseExpression _ _ => true
  | .updateExpression _ => true
  | .lambda _ _ => true
  | _ => false

def isMeaningfulDebuggerExpression (sourceMapper : SourceMapper) : Expression → Bool
  | .valueReference reference =>
      (sourceMapper.valueDefinition reference).any fun referencedDefinition =>
        isMeaningfulDefinitionExpression referencedDefinition.expression
  | expression => isMeaningfulDefinitionExpression expression

def hasVisibleLocalsChange (previousStep : Option ReplayStep) (currentStep : ReplayStep) : Bool :=
  decide (((previousStep.map (·.locals)).getD []) ≠ currentStep.locals)

def shouldRetainDefinitionTransition (step : ReplayStep) (traceStep : TraceStep) : Bool :=
  isMeaningfulDefinitionExpression traceStep.frame.definition.expression || hasVisibleLocalsChange none step

def shouldRetainExpressionStep (sourceMapper : SourceMapper) (step : ReplayStep) (traceStep : TraceStep)
    (previousStep : Option ReplayStep) : Bool :=
  hasVisibleLocalsChange previousStep step || isMeaningfulDebuggerExpression sourceMapper traceStep.expression

/-- What `createVisibleExpressionKey` writes into one text. -/
structure VisibleExpressionKey where
  source : Option (Option String × Option Nat × Option Nat)
  frameIds : List Nat
  locals : List ReplayVariable
  deriving DecidableEq

def createVisibleExpressionKey (step : ReplayStep) : VisibleExpressionKey where
  source := step.sourceLocation.map fun source => (source.path, source.startLine, source.endLine)
  frameIds := step.stackFrames.map (·.frameId)
  locals := step.locals

/-- What the loop does with a step: skips it, or keeps it and goes on with the given key. -/
inductive Retention
  | skip
  | keep (visibleExpressionKey : Option VisibleExpressionKey)

def retentionOf (sourceMapper : SourceMapper) (previousVisibleExpressionKey : Option VisibleExpressionKey)
    (previousStep : Option ReplayStep) (rawStep : ProjectedReplayStep) : Retention :=
  let step := rawStep.step
  let traceStep := rawStep.traceStep
  if step.phase = .stateEffect then .keep none
  else if step.sourceLocation.map (·.precision) ≠ some .exact then .skip
  else if step.phase = .call ∨ step.phase = .return then
    if shouldRetainDefinitionTransition step traceStep then .keep none else .skip
  else if ¬ shouldRetainExpressionStep sourceMapper step traceStep previousStep then .skip
  else if some (createVisibleExpressionKey step) = previousVisibleExpressionKey then .skip
  else .keep (some (createVisibleExpressionKey step))

/-- The loop over the raw steps, which knows the last step that it has kept. -/
def navigableFrom (sourceMapper : SourceMapper) (previousVisibleExpressionKey : Option VisibleExpressionKey)
    (previousStep : Option ReplayStep) : List ProjectedReplayStep → List ReplayStep
  | [] => []
  | rawStep :: rest =>
      match retentionOf sourceMapper previousVisibleExpressionKey previousStep rawStep with
      | .skip => navigableFrom sourceMapper previousVisibleExpressionKey previousStep rest
      | .keep visibleExpressionKey =>
          rawStep.step :: navigableFrom sourceMapper visibleExpressionKey (some rawStep.step) rest

def projectNavigableReplaySteps (sourceMapper : SourceMapper) (rawSteps : List ProjectedReplayStep) : List ReplayStep :=
  (navigableFrom sourceMapper none none rawSteps).mapIdx fun stepIndex step => { step with stepIndex }

def projectReplaySteps (dependencies : LoaderDependencies) (contracts : KeyedMap String HydratedContract)
    (traceSteps : List TraceStep) : List ReplayStep :=
  let rawSteps := projectRawReplaySteps dependencies contracts traceSteps
  match dependencies.sourceMapper with
  | none => rawSteps.map (·.step)
  | some sourceMapper => projectNavigableReplaySteps sourceMapper rawSteps

/-! ## Stacks are not empty -/

/-- The frame of a step is on top of its stack. -/
theorem getLast_pushFrameIfMissing (activeFrames : List ReplayStackFrame) (frame : ReplayStackFrame) :
    (pushFrameIfMissing activeFrames frame).getLast?.map (·.frameId) = some frame.frameId := by
  rw [pushFrameIfMissing]
  split
  · rename_i activeIndex hfound
    obtain ⟨hlt, hframe, -⟩ := List.findIdx?_eq_some_iff_getElem.mp hfound
    rw [List.take_succ_eq_append_getElem hlt, List.getLast?_concat]
    exact congrArg some (beq_iff_eq.mp hframe)
  · rw [List.getLast?_concat]
    rfl

theorem activeFrames_prepareStackForStep (dependencies : LoaderDependencies) (state : ProjectionState)
    (traceStep : TraceStep) :
    (prepareStackForStep dependencies state traceStep).activeFrames
      = pushFrameIfMissing state.activeFrames
          ⟨traceStep.frame.frameId, resolveFrameName dependencies.sourceMapper traceStep⟩ := by
  rw [prepareStackForStep]
  split <;> rfl

theorem getLast_projectStepsFrom {dependencies : LoaderDependencies} {state : ProjectionState} {stepIndex : Nat}
    {traceSteps : List TraceStep} :
    ∀ projected ∈ projectStepsFrom dependencies state stepIndex traceSteps,
      projected.step.stackFrames.getLast?.map (·.frameId) = some projected.traceStep.frame.frameId := by
  induction traceSteps generalizing state stepIndex with
  | nil => exact fun _ hmem => absurd hmem List.not_mem_nil
  | cons traceStep rest ih =>
      intro projected hmem
      rcases List.mem_cons.mp hmem with rfl | hmem
      · show (prepareStackForStep dependencies state traceStep).activeFrames.getLast?.map (·.frameId) = _
        rw [activeFrames_prepareStackForStep, getLast_pushFrameIfMissing]
      · exact ih projected hmem

theorem navigableFrom_subset {sourceMapper : SourceMapper} {visibleExpressionKey : Option VisibleExpressionKey}
    {previousStep : Option ReplayStep} {rawSteps : List ProjectedReplayStep} :
    ∀ step ∈ navigableFrom sourceMapper visibleExpressionKey previousStep rawSteps, ∃ rawStep ∈ rawSteps, rawStep.step = step := by
  induction rawSteps generalizing visibleExpressionKey previousStep with
  | nil => exact fun _ hmem => absurd hmem List.not_mem_nil
  | cons rawStep rest ih =>
      intro step hmem
      rw [navigableFrom] at hmem
      have hrest : (∃ kept ∈ rest, kept.step = step) → ∃ kept ∈ rawStep :: rest, kept.step = step := by
        rintro ⟨kept, hkept, heq⟩
        exact ⟨kept, List.mem_cons_of_mem rawStep hkept, heq⟩
      split at hmem
      · exact hrest (ih step hmem)
      · rcases List.mem_cons.mp hmem with rfl | hmem
        · exact ⟨rawStep, List.mem_cons_self, rfl⟩
        · exact hrest (ih step hmem)

/-- Every step of a session has the stack of a raw step, whether or not there is a source mapper. -/
theorem stackFrames_projectReplaySteps {dependencies : LoaderDependencies} {contracts : KeyedMap String HydratedContract}
    {traceSteps : List TraceStep} :
    ∀ step ∈ projectReplaySteps dependencies contracts traceSteps,
      ∃ rawStep ∈ projectRawReplaySteps dependencies contracts traceSteps, rawStep.step.stackFrames = step.stackFrames := by
  intro step hmem
  rw [projectReplaySteps] at hmem
  split at hmem
  · obtain ⟨rawStep, hraw, rfl⟩ := List.mem_map.mp hmem
    exact ⟨rawStep, hraw, rfl⟩
  · rw [projectNavigableReplaySteps] at hmem
    obtain ⟨index, hlt, rfl⟩ := List.mem_mapIdx.mp hmem
    obtain ⟨rawStep, hraw, heq⟩ := navigableFrom_subset _ (List.getElem_mem hlt)
    exact ⟨rawStep, hraw, by rw [heq]⟩

theorem stackFrames_ne_nil {dependencies : LoaderDependencies} {contracts : KeyedMap String HydratedContract}
    {traceSteps : List TraceStep} :
    ∀ step ∈ projectReplaySteps dependencies contracts traceSteps, step.stackFrames ≠ [] := by
  intro step hmem hempty
  obtain ⟨rawStep, hraw, heq⟩ := stackFrames_projectReplaySteps step hmem
  have htop := getLast_projectStepsFrom rawStep hraw
  rw [heq, hempty] at htop
  cases htop

end CantonSdk.Debugger
