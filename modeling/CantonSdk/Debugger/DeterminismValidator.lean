import CantonSdk.Debugger.ComparableValue
import CantonSdk.Debugger.EnvironmentBuilder

/-!
# The determinism check

`validateOrThrow` compares the effects of a replay with the events that the ledger shows for the update. The
`k`-th contract that a replay creates goes by the name `created-k`, and stands for the contract of the `k`-th
event that created one.
-/

set_option linter.all false

namespace CantonSdk.Debugger

open CantonSdk.Base

inductive EffectKind
  | create | exercise | archive | fetch | lookup
  deriving DecidableEq

/-- `IDamlLfReplayEffect`; what is missing of an argument or a payload is `undefined`. -/
structure ReplayEffect where
  kind : EffectKind
  contractId : Option String
  templateId : Option ReplayIdentifier
  choice : Option String
  argument : HostValue
  payload : HostValue

inductive DeterminismError
  | effectCount (replayed observed : Nat)
  /-- The message shows both effects as JSON. -/
  | diverged (index : Nat)
  deriving DecidableEq

def DeterminismError.message : DeterminismError → String
  | .effectCount replayed observed =>
      "replay produced " ++ toString replayed ++ " effects, but the ledger update exposed " ++ toString observed
  | .diverged index => "replay diverged from the observed ledger effects at index " ++ toString index

def observedEffect : ReplayTransactionEvent → Option ReplayEffect
  | .created event =>
      some ⟨.create, event.contractId, event.templateId, none, .undefined,
        normalizeOptional event.createArguments⟩
  | .exercised event =>
      some ⟨.exercise, event.contractId, event.templateId, event.choice,
        normalizeOptional event.choiceArgument, .undefined⟩
  | .archived event => some ⟨.archive, event.contractId, event.templateId, none, .undefined, .undefined⟩
  | .other => none

def collectObservedEffects (snapshot : ReplayTransactionSnapshot) : List ReplayEffect :=
  snapshot.events.filterMap observedEffect

def isComparable (effect : ReplayEffect) : Bool :=
  decide (effect.kind = .create ∨ effect.kind = .exercise ∨ effect.kind = .archive)

def collectComparableReplayedEffects (replayedEffects : List ReplayEffect) : List ReplayEffect :=
  replayedEffects.filter isComparable

def normalizeComparableContractId (kind : EffectKind) (contractId : Option String)
    (syntheticCreateContractIds : KeyedMap String String) : Option String :=
  if kind = .create then none
  else contractId.map fun contractId => (syntheticCreateContractIds.get contractId).getD contractId

def templateIdValue : Option ReplayIdentifier → HostValue
  | none => .undefined
  | some templateId => recordIdValue templateId

def effectsEqual (left right : ReplayEffect) (syntheticCreateContractIds : KeyedMap String String) : Bool :=
  decide (left.kind = right.kind)
    && decide (normalizeComparableContractId left.kind left.contractId syntheticCreateContractIds
      = normalizeComparableContractId right.kind right.contractId syntheticCreateContractIds)
    && valuesEqual (templateIdValue left.templateId) (templateIdValue right.templateId)
    && decide (left.choice = right.choice)
    && valuesEqual (normalizeComparableValue left.argument) (normalizeComparableValue right.argument)
    && valuesEqual (normalizeComparableValue left.payload) (normalizeComparableValue right.payload)

/-- The name of the contract that a replay creates after `createIndex` others. -/
def syntheticContractId (createIndex : Nat) : String := "created-" ++ toString (createIndex + 1)

/-- The loop of `validateOrThrow`, at an index, after `createIndex` created contracts. -/
def validateEffects (index createIndex : Nat) (syntheticCreateContractIds : KeyedMap String String) :
    List ReplayEffect → List ReplayEffect → Except DeterminismError Unit
  | observed :: observedEffects, replayed :: replayedEffects =>
      if effectsEqual observed replayed syntheticCreateContractIds then
        match observed.kind, observed.contractId with
        | .create, some contractId =>
            validateEffects (index + 1) (createIndex + 1)
              (syntheticCreateContractIds.set (syntheticContractId createIndex) contractId)
              observedEffects replayedEffects
        | _, _ =>
            validateEffects (index + 1) createIndex syntheticCreateContractIds observedEffects replayedEffects
      else .error (.diverged index)
  | _ :: _, [] => .error (.diverged index)
  | [], _ => .ok ()

def validateOrThrow (snapshot : ReplayTransactionSnapshot) (replayedEffects : List ReplayEffect) :
    Except DeterminismError Unit :=
  let observedEffects := collectObservedEffects snapshot
  let comparableReplayedEffects := collectComparableReplayedEffects replayedEffects
  if observedEffects.length = comparableReplayedEffects.length then
    validateEffects 0 0 .empty observedEffects comparableReplayedEffects
  else .error (.effectCount comparableReplayedEffects.length observedEffects.length)

end CantonSdk.Debugger
