import CantonSdk.Testing.CampaignMetrics

/-!
# Running one candidate of a campaign

`runCampaignCandidateAsync` runs a list of generated actions through the hooks of its caller. A hook may do
anything to the world outside, and resolve or throw at any call; the calls and how they settled are kept
beside the variables of the code, to say what has been called and when.
-/

set_option linter.all false

namespace CantonSdk.Testing

open CantonSdk.Base

structure CampaignInvariantFailure where
  code : String
  invariant : String
  message : String
  deriving DecidableEq

/-- What an action says of itself for the metrics. -/
class CampaignExecutableAction (Action : Type) where
  actor : Action → String
  targetKey : Action → String

inductive CampaignLifecyclePhase (Action : Type) where
  | beforeRun
  | afterAction (action : Action)
  | afterRun
  | postCleanup
  deriving DecidableEq

inductive CampaignFailureKind where
  | executionError
  | invalidDepth
  deriving DecidableEq

structure CampaignLifecycleTrace (Action : Type) where
  actions : List (Action × CampaignMetricOutcome)
  failures : List CampaignInvariantFailure
  metrics : CampaignMetrics
  failureKind : Option CampaignFailureKind

structure CandidateResult (Action : Type) where
  passed : Bool
  trace : CampaignLifecycleTrace Action

/-- How a call of a hook settles: it resolves with a value or throws. -/
abbrev Settled (α : Type) := Except Unit α

/-- A hook, as a function of the world outside. -/
abbrev Hook (World α : Type) := World → Settled α × World

/-- What the caller provides. A setup that resolves with `undefined` gives no context. -/
structure CampaignInit (World Context Action : Type) where
  depth : Nat
  failOnRevert : Bool
  setupAsync : List Action → Hook World (Option Context)
  executeAsync : Option Context → Action → Hook World CampaignMetricOutcome
  reconcileAsync : Option (Option Context → CampaignLifecyclePhase Action → Hook World Unit)
  checkInvariantsAsync :
    Option (Context → CampaignLifecyclePhase Action → Hook World (List CampaignInvariantFailure))
  cleanupAsync : Option (Context → Hook World Unit)

/-- A call of a hook, and how it settled. -/
inductive HookCall (Context Action : Type) where
  | setup (settled : Settled (Option Context))
  | reconcile (phase : CampaignLifecyclePhase Action) (settled : Settled Unit)
  | execute (action : Action) (settled : Settled CampaignMetricOutcome)
  | checkInvariants (phase : CampaignLifecyclePhase Action)
      (settled : Settled (List CampaignInvariantFailure))
  | cleanup (settled : Settled Unit)

/-- The variables of the code, the world and the calls so far. -/
structure CandidateRun (World Context Action : Type) where
  world : World
  calls : List (HookCall Context Action)
  metrics : CampaignMetrics
  executed : List (Action × CampaignMetricOutcome)
  failures : List CampaignInvariantFailure
  context : Option Context
  failureKind : Option CampaignFailureKind
  passed : Bool

/-- Asynchronous code over these variables; what it has assigned before a throw stays assigned. -/
abbrev CampaignM (World Context Action : Type) :=
  ExceptT Unit (StateM (CandidateRun World Context Action))

section Candidate

variable {World Context Action : Type} [CampaignExecutableAction Action] (locale : Collation)
  (init : CampaignInit World Context Action)

/-- `await hook(...)`. -/
def callHook {α : Type} (hook : Hook World α) (record : Settled α → HookCall Context Action) :
    CampaignM World Context Action α :=
  ExceptT.mk fun run =>
    let (settled, world) := hook run.world
    (settled, { run with world, calls := run.calls ++ [record settled] })

/-- `await init.reconcileAsync?.(context, phase)`. -/
def reconcile (phase : CampaignLifecyclePhase Action) : CampaignM World Context Action Unit := do
  match init.reconcileAsync with
  | none => pure ()
  | some reconcileAsync => callHook (reconcileAsync (← get).context phase) (.reconcile phase)

/-- The local function `checkInvariantsAsync`. -/
def checkInvariants (phase : CampaignLifecyclePhase Action) : CampaignM World Context Action Unit := do
  match (← get).context, init.checkInvariantsAsync with
  | some context, some checkInvariantsAsync =>
      let phaseFailures ← callHook (checkInvariantsAsync context phase) (.checkInvariants phase)
      modify fun run =>
        { run with
          failures := run.failures ++ phaseFailures
          passed := run.passed && phaseFailures.isEmpty }
  | _, _ => pure ()

/-- `outcome.kind === "accepted" || (outcome.kind === "protocol-revert" && !init.failOnRevert)`. -/
def tolerates (failOnRevert : Bool) : CampaignMetricOutcome → Bool
  | .accepted _ => true
  | .protocolRevert _ => !failOnRevert
  | _ => false

def executionThrew : CampaignMetricOutcome := .transportError "Campaign action execution threw an error."

/-- The body of the loop over the actions. -/
def runAction (action : Action) : CampaignM World Context Action Unit := do
  let outcome ← tryCatch (callHook (init.executeAsync (← get).context action) (.execute action))
    fun _ => pure executionThrew
  modify fun run =>
    { run with
      executed := run.executed ++ [(action, outcome)]
      metrics := recordCampaignAction locale run.metrics (CampaignExecutableAction.actor action)
        (CampaignExecutableAction.targetKey action) outcome }
  if outcome.kind = "accepted" then reconcile init (.afterAction action)
  checkInvariants init (.afterAction action)
  if tolerates init.failOnRevert outcome then pure ()
  else modify fun run => { run with passed := false }

/-- The loop, which stops before an action where `passed` is false. -/
def runActions : List Action → CampaignM World Context Action Unit
  | [] => pure ()
  | action :: rest => do
      if (← get).passed then
        runAction locale init action
        runActions rest

/-- The `try` block. -/
def runHooks (actions : List Action) : CampaignM World Context Action Unit := do
  let context ← callHook (init.setupAsync actions) .setup
  modify fun run => { run with context }
  reconcile init .beforeRun
  checkInvariants init .beforeRun
  runActions locale init actions
  if (← get).passed then checkInvariants init .afterRun

/-- A `catch` block; only the first failure names its kind. -/
def noteThrow : CampaignM World Context Action Unit :=
  modify fun run =>
    { run with
      passed := false
      failureKind := run.failureKind.or (some .executionError) }

/-- The `finally` block. -/
def cleanUp : CampaignM World Context Action Unit := do
  match (← get).context with
  | none => pure ()
  | some context =>
      tryCatch
        (match init.cleanupAsync with
          | none => pure ()
          | some cleanupAsync => callHook (cleanupAsync context) .cleanup)
        fun _ => noteThrow
      tryCatch (checkInvariants init .postCleanup) fun _ => noteThrow

/-- The `try` statement; its blocks catch everything. -/
def runCandidate (actions : List Action) : CampaignM World Context Action Unit := do
  tryCatch (runHooks locale init actions) fun _ => noteThrow
  cleanUp init

/-- The variables before the `try` statement. -/
def CandidateRun.start (world : World) : CandidateRun World Context Action where
  world
  calls := []
  metrics := createCampaignMetrics
  executed := []
  failures := []
  context := none
  failureKind := none
  passed := true

/-- `runCampaignCandidateAsync`: its result, and the calls that it made. -/
def runCampaignCandidate (actions : List Action) (world : World) :
    CandidateResult Action × List (HookCall Context Action) :=
  if actions.length ≠ init.depth then
    (⟨false, ⟨[], [], createCampaignMetrics, some .invalidDepth⟩⟩, [])
  else
    let run := (runCandidate locale init actions (.start world)).2
    (⟨run.passed, ⟨run.executed, run.failures, run.metrics, run.failureKind⟩⟩, run.calls)

end Candidate

end CantonSdk.Testing
