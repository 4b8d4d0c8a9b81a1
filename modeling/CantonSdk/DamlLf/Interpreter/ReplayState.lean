import CantonSdk.Base.Effectful
import CantonSdk.DamlLf.Interpreter.LedgerRecord
import CantonSdk.DamlLf.Interpreter.LexicalScope

/-!
# The state of the evaluator

What an evaluation reads and changes: the maps of the scopes, the counter for frames, the steps that a trace sink has
been told of, and, while an entrypoint is replayed, its effects, the contracts it created and the counters from which
contract ids are taken. All of it is changed in place, so an exception that is caught finds what was done before it.
-/

set_option linter.all false

namespace CantonSdk.DamlLf.Interpreter

open CantonSdk.Base

/-- `IDamlLfReplayEffect["templateId"]`. -/
structure ReplayTemplateId where
  packageId : Option String
  moduleName : Option String
  entityName : Option String
  deriving DecidableEq

inductive ReplayEffectKind
  | create
  | exercise
  | archive
  | fetch
  | lookup
  deriving DecidableEq

/-- `IDamlLfReplayEffect`. -/
structure ReplayEffect where
  kind : ReplayEffectKind
  contractId : Option String
  templateId : Option ReplayTemplateId
  choice : Option String
  argument : HostRaw
  payload : HostRaw

inductive StepKind
  | stateEffect
  | call
  | return
  | enterExpression
  | exitExpression
  deriving DecidableEq

/-- `IDamlLfTraceStep`. The source has no `openFrames`: these are the frames of the calls that the host has open
when the step is told, the outermost first. -/
structure TraceStep where
  kind : StepKind
  expression : Expression
  frame : RuntimeFrame
  locals : List (String × Value)
  value : Option Value
  stateEffect : Option ReplayEffect
  openFrames : List Nat

/-- What a contract that is known to the replay holds. -/
structure KnownContract where
  payload : HostRaw
  templateId : Option ReplayTemplateId

inductive ReplayBindingMode
  | standard
  | createWrapper
  | exerciseWrapper
  | templateChoice
  deriving DecidableEq

/-- What is thrown other than the exceptions of a program. -/
inductive HostException
  | host (error : HostError)
  /-- `ReplaySourceMapException`. -/
  | replaySourceMap (message : String)
  deriving DecidableEq

inductive Failure
  /-- `DamlLfThrownException`. -/
  | thrown (value : Value)
  | raised (exception : HostException)
  /-- The evaluation was not followed further. -/
  | gaveUp

structure FrameIdentity where
  packageId : String
  moduleName : String

/-- What `resolveChoiceDefinitionOrThrow` returns. -/
structure ResolvedChoice where
  definition : ValueDefinition
  frameIdentity : Option FrameIdentity
  replayExpression : Expression
  replayBindingMode : ReplayBindingMode

inductive EntrypointKind
  | create
  | exercise
  deriving DecidableEq

/-- `entrypoint` of an environment. -/
structure ReplayEntrypoint where
  kind : EntrypointKind
  templateId : Option ReplayTemplateId
  contractId : Option String
  choice : Option String
  argument : Raw Empty

/-- A contract of the environment. -/
structure HydratedContract where
  payload : Raw Empty
  templateId : Option ReplayTemplateId

/-- `IDamlLfReplayEnvironment`. Its values come from the ledger, so there is no function among them. -/
structure ReplayEnvironment where
  offset : String
  entrypoint : ReplayEntrypoint
  contracts : KeyedMap String HydratedContract
  resolveChoiceDefinition : Option (DamlLfTemplateId → String → Except HostException ResolvedChoice)
  entrypointExpression : Option Expression
  entrypointBindingMode : Option ReplayBindingMode
  observedCreateContractIds : List String

/-- `IActiveReplayContext`. -/
structure ReplayContext where
  environment : ReplayEnvironment
  effects : List ReplayEffect
  createdContracts : KeyedMap String KnownContract
  observedCreateContractIds : List String
  nextSyntheticContractIdNumber : Nat
  nextObservedCreateIndex : Nat

structure EvaluatorState where
  scopes : ScopeStore
  /-- No map has been made at this place or behind it. -/
  nextScope : ScopeId
  nextFrameNumber : Nat
  activeReplayContext : Option ReplayContext
  steps : List TraceStep

namespace EvaluatorState

variable (state : EvaluatorState)

/-- A new map at the next place. -/
def addScope : EvaluatorState :=
  { state with
    scopes := Function.update state.scopes state.nextScope KeyedMap.empty
    nextScope := state.nextScope + 1 }

def setBinding (scopeId : ScopeId) (name : String) (value : Value) : EvaluatorState :=
  { state with scopes := Function.update state.scopes scopeId ((state.scopes scopeId).set name value) }

def setBindings (scopeId : ScopeId) (bindings : List (String × Value)) : EvaluatorState :=
  bindings.foldl (fun state binding => state.setBinding scopeId binding.1 binding.2) state

def countFrame : EvaluatorState := { state with nextFrameNumber := state.nextFrameNumber + 1 }

def addStep (step : TraceStep) : EvaluatorState := { state with steps := state.steps ++ [step] }

def withContext (context : Option ReplayContext) : EvaluatorState := { state with activeReplayContext := context }

end EvaluatorState

def ReplayContext.addEffect (context : ReplayContext) (effect : ReplayEffect) : ReplayContext :=
  { context with effects := context.effects ++ [effect] }

/-- A computation of the evaluator; what it reads are the frames of the calls that the host has open. -/
abbrev Evaluation := Effectful (List Nat) Failure EvaluatorState

def liftHost {α : Type} (result : Except HostError α) : Evaluation α :=
  match result with
  | .ok value => pure value
  | .error error => throw (.raised (.host error))

def onStep (kind : StepKind) (expression : Expression) (frame : RuntimeFrame) (value : Option Value)
    (stateEffect : Option ReplayEffect) : Evaluation Unit := do
  let openFrames ← read
  modify fun state =>
    state.addStep ⟨kind, expression, frame, frame.scope.snapshotBindings state.scopes, value, stateEffect, openFrames⟩

/-- `createChild` of the scope with the given chain; without a chain, the constructor. -/
def createScope (parents : List ScopeId) : Evaluation LexicalScope := do
  let state ← get
  modify EvaluatorState.addScope
  return ⟨state.nextScope, parents⟩

def setBinding (scope : LexicalScope) (name : String) (value : Value) : Evaluation Unit :=
  modify fun state => state.setBinding scope.bindings name value

def setBindings (scope : LexicalScope) : List (String × Value) → Evaluation Unit
  | [] => return ()
  | (name, value) :: bindings => do
      setBinding scope name value
      setBindings scope bindings

/-- Derives a frame with a scope inside the scope of the frame, and sets bindings in it. -/
def deriveScopedFrame (frame : RuntimeFrame) (bindings : List (String × Value)) : Evaluation RuntimeFrame := do
  let scope ← createScope frame.scope.chain
  setBindings scope bindings
  return frame.derive scope

def emitReplayEffect (effect : ReplayEffect) (expression : Expression) (frame : RuntimeFrame) : Evaluation Unit := do
  modify fun state => state.withContext (state.activeReplayContext.map (·.addEffect effect))
  onStep .stateEffect expression frame none (some effect)

/-! ### What they do to the state -/

variable {openFrames : List Nat} {state : EvaluatorState}

theorem run_liftHost_ok {α : Type} {value : α} : liftHost (.ok value) openFrames state = (.ok value, state) := rfl

theorem run_liftHost_error {α : Type} {error : HostError} :
    (liftHost (.error error) : Evaluation α) openFrames state = (.error (.raised (.host error)), state) := rfl

theorem run_onStep (kind : StepKind) (expression : Expression) (frame : RuntimeFrame) (value : Option Value)
    (stateEffect : Option ReplayEffect) :
    onStep kind expression frame value stateEffect openFrames state
      = (.ok (), state.addStep ⟨kind, expression, frame, frame.scope.snapshotBindings state.scopes, value, stateEffect,
          openFrames⟩) := rfl

theorem run_createScope (parents : List ScopeId) :
    createScope parents openFrames state = (.ok ⟨state.nextScope, parents⟩, state.addScope) := rfl

theorem run_setBinding (scope : LexicalScope) (name : String) (value : Value) :
    setBinding scope name value openFrames state = (.ok (), state.setBinding scope.bindings name value) := rfl

theorem run_setBindings (scope : LexicalScope) (bindings : List (String × Value)) :
    setBindings scope bindings openFrames state = (.ok (), state.setBindings scope.bindings bindings) := by
  induction bindings generalizing state with
  | nil => rfl
  | cons first rest ih =>
      rw [setBindings, run_bind, run_setBinding, andThen_ok, ih]
      rfl

theorem run_deriveScopedFrame (frame : RuntimeFrame) (bindings : List (String × Value)) :
    deriveScopedFrame frame bindings openFrames state
      = (.ok (frame.derive ⟨state.nextScope, frame.scope.chain⟩), state.addScope.setBindings state.nextScope bindings) := by
  rw [deriveScopedFrame, run_bind, run_createScope, andThen_ok, run_bind, run_setBindings]
  rfl

theorem run_emitReplayEffect (effect : ReplayEffect) (expression : Expression) (frame : RuntimeFrame) :
    emitReplayEffect effect expression frame openFrames state
      = (.ok (), (state.withContext (state.activeReplayContext.map (·.addEffect effect))).addStep
          ⟨.stateEffect, expression, frame, frame.scope.snapshotBindings state.scopes, none, some effect, openFrames⟩) :=
  rfl

end CantonSdk.DamlLf.Interpreter
