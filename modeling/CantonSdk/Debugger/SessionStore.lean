import CantonSdk.Base.KeyedMap
import CantonSdk.Debugger.StepProjection
import CantonSdk.DamlLf.Interpreter.Evaluator

/-!
# Stepping through a session

The store of replay sessions: each session has its steps and the index of the current one. Stepping over a call and
stepping out look for the first later step with fewer frames on its stack. They land where the current frame has been
left exactly when no other frame takes its place in between and the frame is not entered again further down.
-/

set_option linter.all false

namespace CantonSdk.Debugger

open CantonSdk.Base CantonSdk.DamlLf.Interpreter

/-- `ILoadedReplaySession`, with at least one step, whose current step is the first one. -/
structure LoadedReplaySession where
  sessionId : String
  steps : List ReplayStep
  steps_ne : steps ≠ []
  stackFrames_ne : ∀ step ∈ steps, step.stackFrames ≠ []

/-- The session that the loader makes of a trace, if it has kept any step of it. -/
def loadSession (dependencies : LoaderDependencies) (sessionId : String) (contracts : KeyedMap String HydratedContract)
    (traceSteps : List TraceStep) : Option LoadedReplaySession :=
  if h : projectReplaySteps dependencies contracts traceSteps ≠ [] then
    some ⟨sessionId, projectReplaySteps dependencies contracts traceSteps, h, stackFrames_ne_nil⟩
  else none

structure StoredReplaySession where
  steps : List ReplayStep
  currentStepIndex : Nat
  deriving DecidableEq

structure ReplayStepAdvanceResult where
  sessionId : String
  step : Option ReplayStep
  isTerminal : Bool
  nextStepIndex : Option Nat

namespace StoredReplaySession

variable (session : StoredReplaySession)

def currentStep : Option ReplayStep := session.steps[session.currentStepIndex]?

/-- The stack of the step at an index. -/
def stackFramesAt (index : Nat) : List ReplayStackFrame := ((session.steps[index]?).map (·.stackFrames)).getD []

/-- The first later step for which the predicate holds, or the last step. -/
def findNextIndexOrCurrent (predicate : ReplayStep → Bool) : Nat :=
  match (session.steps.drop (session.currentStepIndex + 1)).findIdx? predicate with
  | some index => session.currentStepIndex + 1 + index
  | none => session.steps.length - 1

def advanceInto : StoredReplaySession :=
  { session with currentStepIndex := min (session.currentStepIndex + 1) (session.steps.length - 1) }

def advanceBack : StoredReplaySession := { session with currentStepIndex := session.currentStepIndex - 1 }

def advanceOut : StoredReplaySession :=
  { session with
    currentStepIndex := session.findNextIndexOrCurrent fun step =>
      decide (step.stackFrames.length < (session.stackFramesAt session.currentStepIndex).length) }

def advanceOver : StoredReplaySession :=
  if session.currentStep.map (·.phase) ≠ some .call then session.advanceInto
  else
    { session with
      currentStepIndex := session.findNextIndexOrCurrent fun step =>
        decide (step.stackFrames.length < (session.stackFramesAt session.currentStepIndex).length) }

def continueToEnd : StoredReplaySession := { session with currentStepIndex := session.steps.length - 1 }

def setCurrentStepById (stepId : String) : Except String StoredReplaySession :=
  match session.steps.findIdx? fun step => step.stepId == stepId with
  | none => .error ("unknown replay step '" ++ stepId ++ "'")
  | some nextIndex => .ok { session with currentStepIndex := nextIndex }

def toAdvanceResult (sessionId : String) : ReplayStepAdvanceResult where
  sessionId := sessionId
  step := session.currentStep
  isTerminal := decide (session.currentStepIndex ≥ session.steps.length - 1)
  nextStepIndex :=
    if session.currentStepIndex ≥ session.steps.length - 1 then none else some (session.currentStepIndex + 1)

end StoredReplaySession

/-! ## The store -/

abbrev ReplaySessionStore := KeyedMap String StoredReplaySession

inductive Advance
  | into
  | back
  | over
  | out
  | continue
  | setStep (stepId : String)

def StoredReplaySession.advance (session : StoredReplaySession) : Advance → Except String StoredReplaySession
  | .into => .ok session.advanceInto
  | .back => .ok session.advanceBack
  | .over => .ok session.advanceOver
  | .out => .ok session.advanceOut
  | .continue => .ok session.continueToEnd
  | .setStep stepId => session.setCurrentStepById stepId

inductive StoreOperation
  | put (session : LoadedReplaySession)
  | advance (sessionId : String) (advance : Advance)
  | dispose (sessionId : String)

namespace ReplaySessionStore

def getRecord (store : ReplaySessionStore) (sessionId : String) : Except String StoredReplaySession :=
  match store.get sessionId with
  | none => .error ("replay session '" ++ sessionId ++ "' does not exist")
  | some session => .ok session

def put (store : ReplaySessionStore) (session : LoadedReplaySession) : ReplaySessionStore :=
  store.set session.sessionId ⟨session.steps, 0⟩

/-- Advances a session, and says where it is now. -/
def advance (store : ReplaySessionStore) (sessionId : String) (advance : Advance) :
    Except String (ReplayStepAdvanceResult × ReplaySessionStore) := do
  let record ← getRecord store sessionId
  let advanced ← record.advance advance
  return (advanced.toAdvanceResult sessionId, store.set sessionId advanced)

/-- The store after an operation; one that throws has changed nothing. -/
def perform (store : ReplaySessionStore) : StoreOperation → ReplaySessionStore
  | .put session => put store session
  | .advance sessionId command =>
      match advance store sessionId command with
      | .ok (_, advanced) => advanced
      | .error _ => store
  | .dispose sessionId => store.delete sessionId

def run (operations : List StoreOperation) : ReplaySessionStore := operations.foldl perform KeyedMap.empty

end ReplaySessionStore

end CantonSdk.Debugger
