import CantonSdk.Base.Persistent
import CantonSdk.Testing.CampaignRunner

/-!
# The verdict on a candidate

Whatever its hooks do, a candidate runs its actions in order up to the first failure, cleans up once, and
passes exactly when it ran every action and nothing failed. Each part of the code adds calls to those made
before, keeps the trace in step with them, and either resolves with `passed` telling whether a call has
failed or throws because one has.
-/

set_option linter.all false

namespace CantonSdk.Testing

open CantonSdk.Base

variable {World Context Action : Type}

/-! ### Calls -/

namespace HookCall

def threw : HookCall Context Action → Bool
  | setup (.error _) | reconcile _ (.error _) | execute _ (.error _) | checkInvariants _ (.error _)
  | cleanup (.error _) => true
  | _ => false

/-- The action that a call executes, with its outcome. -/
def executed : HookCall Context Action → Option (Action × CampaignMetricOutcome)
  | execute action (.ok outcome) => some (action, outcome)
  | execute action (.error _) => some (action, executionThrew)
  | _ => none

/-- The failures that a call reports. -/
def reported : HookCall Context Action → List CampaignInvariantFailure
  | checkInvariants _ (.ok failures) => failures
  | _ => []

/-- A hook throws, an outcome is not tolerated or a check reports a failure. -/
def fails (failOnRevert : Bool) (call : HookCall Context Action) : Bool :=
  call.threw || !call.reported.isEmpty || call.executed.any fun entry => !tolerates failOnRevert entry.2

def isCleanup : HookCall Context Action → Bool
  | cleanup _ => true
  | _ => false

def isPostCleanupCheck : HookCall Context Action → Bool
  | checkInvariants .postCleanup _ => true
  | _ => false

/-- The setup resolves. -/
def setsUp : HookCall Context Action → Bool
  | setup (.ok _) => true
  | _ => false

/-- The setup resolves with a context. -/
def givesContext : HookCall Context Action → Bool
  | setup (.ok (some _)) => true
  | _ => false

/-- A call of the loop or of the checks around it. -/
def isDuring : HookCall Context Action → Bool
  | reconcile _ _ | execute _ _ => true
  | checkInvariants phase _ =>
      match phase with
      | .postCleanup => false
      | _ => true
  | setup _ | cleanup _ => false

theorem not_isCleanup {call : HookCall Context Action} (h : call.isDuring = true) :
    call.isCleanup = false := by
  cases call <;> first | rfl | cases h

theorem not_isPostCleanupCheck {call : HookCall Context Action} (h : call.isDuring = true) :
    call.isPostCleanupCheck = false := by
  cases call with
  | checkInvariants phase settled => cases phase <;> first | rfl | cases h
  | _ => rfl

theorem not_givesContext {call : HookCall Context Action} (h : call.isDuring = true) :
    call.givesContext = false := by
  cases call <;> first | rfl | cases h

end HookCall

/-! ### What a part of the code adds -/

section Parts

variable [CampaignExecutableAction Action] {locale : Collation}
  {init : CampaignInit World Context Action} {run after last : CandidateRun World Context Action}
  {added others : List (HookCall Context Action)}

/-- The metrics with these actions recorded. -/
def recordAll (locale : Collation) (metrics : CampaignMetrics)
    (executed : List (Action × CampaignMetricOutcome)) : CampaignMetrics :=
  executed.foldl (fun metrics entry =>
    recordCampaignAction locale metrics (CampaignExecutableAction.actor entry.1)
      (CampaignExecutableAction.targetKey entry.1) entry.2) metrics

/-- Calls have been added, and the trace follows them. -/
structure CandidateRun.Adds (locale : Collation) (run after : CandidateRun World Context Action)
    (added : List (HookCall Context Action)) : Prop where
  calls : after.calls = run.calls ++ added
  executed : after.executed = run.executed ++ added.filterMap HookCall.executed
  failures : after.failures = run.failures ++ added.flatMap HookCall.reported
  metrics : after.metrics = recordAll locale run.metrics (added.filterMap HookCall.executed)

theorem CandidateRun.Adds.trans (hfirst : run.Adds locale after added) (hsecond : after.Adds locale last others) :
    run.Adds locale last (added ++ others) where
  calls := by rw [hsecond.calls, hfirst.calls, List.append_assoc]
  executed := by rw [hsecond.executed, hfirst.executed, List.filterMap_append, List.append_assoc]
  failures := by rw [hsecond.failures, hfirst.failures, List.flatMap_append, List.append_assoc]
  metrics := by
    rw [hsecond.metrics, hfirst.metrics, List.filterMap_append, recordAll, recordAll, recordAll,
      List.foldl_append]

/-- What a part has settled with: `passed` has followed its calls, or one of them has failed. -/
def Verdict (init : CampaignInit World Context Action) (run : CandidateRun World Context Action)
    (settled : Settled PUnit) (after : CandidateRun World Context Action)
    (added : List (HookCall Context Action)) : Prop :=
  match settled with
  | .ok _ => after.passed = (run.passed && !added.any (HookCall.fails init.failOnRevert))
  | .error _ => added.any (HookCall.fails init.failOnRevert) = true

/-- A part of the code adds calls of this kind. -/
def Calls (locale : Collation) (init : CampaignInit World Context Action)
    (x : CampaignM World Context Action PUnit) (run : CandidateRun World Context Action)
    (kind : List (HookCall Context Action) → Prop) : Prop :=
  Settles x run fun settled after => ∃ added, run.Adds locale after added ∧ after.context = run.context ∧
    Verdict init run settled after added ∧ kind added

omit [CampaignExecutableAction Action] in
theorem settles_callHook {α : Type} {hook : Hook World α} {record : Settled α → HookCall Context Action}
    {post : Settled α → CandidateRun World Context Action → Prop}
    (h : ∀ settled world, post settled { run with world, calls := run.calls ++ [record settled] }) :
    Settles (callHook hook record) run post :=
  h _ _

theorem calls_pure {kind : List (HookCall Context Action) → Prop} (hkind : kind []) :
    Calls locale init (pure ⟨⟩) run kind := by
  refine settles_pure ⟨[], ⟨?_, ?_, ?_, rfl⟩, rfl, ?_, hkind⟩
  · rw [List.append_nil]
  · rw [List.filterMap_nil, List.append_nil]
  · rw [List.flatMap_nil, List.append_nil]
  · simp [Verdict]

theorem reconcile_calls (phase : CampaignLifecyclePhase Action) :
    Calls locale init (reconcile init phase) run fun added =>
      added = [] ∨ ∃ settled, added = [.reconcile phase settled] := by
  unfold reconcile
  split
  · exact calls_pure (Or.inl rfl)
  · apply settles_get_bind
    apply settles_callHook
    intro settled world
    refine ⟨[.reconcile phase settled], ⟨rfl, ?_, ?_, rfl⟩, rfl, ?_, Or.inr ⟨settled, rfl⟩⟩
    · simp [HookCall.executed]
    · simp [HookCall.reported]
    · cases settled with
      | ok _ => simp [Verdict, HookCall.fails, HookCall.threw, HookCall.reported, HookCall.executed]
      | error _ => simp [Verdict, HookCall.fails, HookCall.threw]

/-- A check is made where there is a context and a hook for it. -/
def checks (init : CampaignInit World Context Action) (run : CandidateRun World Context Action) : Bool :=
  run.context.isSome && init.checkInvariantsAsync.isSome

theorem checkInvariants_calls (phase : CampaignLifecyclePhase Action) :
    Calls locale init (checkInvariants init phase) run fun added =>
      if checks init run then ∃ settled, added = [.checkInvariants phase settled] else added = [] := by
  unfold checkInvariants
  apply settles_get_bind
  split
  · rename_i context checkInvariantsAsync hcontext hcheck
    have hchecks : checks init run = true := by simp [checks, hcontext, hcheck]
    apply settles_bind
    apply settles_callHook
    intro settled world
    cases settled with
    | ok phaseFailures =>
        apply settles_modify
        refine ⟨[.checkInvariants phase (.ok phaseFailures)], ⟨rfl, ?_, ?_, rfl⟩, rfl, ?_, ?_⟩
        · simp [HookCall.executed]
        · simp [HookCall.reported]
        · simp [Verdict, HookCall.fails, HookCall.threw, HookCall.reported, HookCall.executed]
        · exact (if_pos hchecks).mpr ⟨_, rfl⟩
    | error thrown =>
        refine ⟨[.checkInvariants phase (.error thrown)], ⟨rfl, ?_, ?_, rfl⟩, rfl, ?_, ?_⟩
        · simp [HookCall.executed]
        · simp [HookCall.reported]
        · simp [Verdict, HookCall.fails, HookCall.threw]
        · exact (if_pos hchecks).mpr ⟨_, rfl⟩
  · rename_i hneither
    have hchecks : ¬ checks init run = true := by
      intro hboth
      rw [checks, Bool.and_eq_true, Option.isSome_iff_exists, Option.isSome_iff_exists] at hboth
      obtain ⟨⟨context, hcontext⟩, ⟨check, hcheck⟩⟩ := hboth
      exact hneither context check hcontext hcheck
    exact calls_pure (by rw [if_neg hchecks])

/-- One part after another: the second runs where the first has resolved, and finds in `passed` whether a
call has failed so far. -/
theorem Calls.bind {x y : CampaignM World Context Action PUnit}
    {first kind : List (HookCall Context Action) → Prop} (hx : Calls locale init x run first)
    (second : Bool → List (HookCall Context Action) → Prop)
    (hy : ∀ after : CandidateRun World Context Action, after.context = run.context →
      Calls locale init y after (second after.passed))
    (hthrows : ∀ added, first added → added.any (HookCall.fails init.failOnRevert) = true → kind added)
    (hboth : ∀ added others, first added →
      second (run.passed && !added.any (HookCall.fails init.failOnRevert)) others → kind (added ++ others)) :
    Calls locale init (x >>= fun _ => y) run kind := by
  apply settles_bind
  apply Settles.mono hx
  intro settled after hafter
  obtain ⟨added, hadds, hcontext, hverdict, hfirst⟩ := hafter
  cases settled with
  | error thrown => exact ⟨added, hadds, hcontext, hverdict, hthrows added hfirst hverdict⟩
  | ok _ =>
      have hpassed : after.passed = (run.passed && !added.any (HookCall.fails init.failOnRevert)) := hverdict
      apply Settles.mono (hy after hcontext)
      intro settled last hlast
      obtain ⟨others, hadds', hcontext', hverdict', hsecond⟩ := hlast
      rw [hpassed] at hsecond
      refine ⟨added ++ others, hadds.trans hadds', hcontext'.trans hcontext, ?_,
        hboth added others hfirst hsecond⟩
      unfold Verdict at hverdict' ⊢
      cases settled with
      | ok _ =>
          simp only [] at hverdict' ⊢
          rw [hverdict', hpassed, List.any_append, Bool.not_or, Bool.and_assoc]
      | error thrown =>
          simp only [] at hverdict' ⊢
          rw [List.any_append, hverdict', Bool.or_true]

/-- Calls of the checks and reconciliations around the actions. -/
def IsQuiet (added : List (HookCall Context Action)) : Prop :=
  ∀ call ∈ added, call.executed = none ∧ call.isDuring = true

omit [CampaignExecutableAction Action] in
theorem IsQuiet.append {first second : List (HookCall Context Action)} (hfirst : IsQuiet first)
    (hsecond : IsQuiet second) : IsQuiet (first ++ second) := by
  intro call hcall
  cases List.mem_append.mp hcall with
  | inl hmem => exact hfirst call hmem
  | inr hmem => exact hsecond call hmem

theorem Calls.mono {x : CampaignM World Context Action PUnit}
    {kind wider : List (HookCall Context Action) → Prop} (h : Calls locale init x run kind)
    (hwider : ∀ added, kind added → wider added) : Calls locale init x run wider := by
  apply Settles.mono h
  intro settled after hafter
  obtain ⟨added, hadds, hcontext, hverdict, hkind⟩ := hafter
  exact ⟨added, hadds, hcontext, hverdict, hwider added hkind⟩

theorem reconcile_quiet (phase : CampaignLifecyclePhase Action) :
    Calls locale init (reconcile init phase) run IsQuiet := by
  apply (reconcile_calls phase).mono
  intro added hadded call hcall
  obtain rfl | ⟨settled, rfl⟩ := hadded
  · cases hcall
  · rw [List.mem_singleton.mp hcall]
    exact ⟨rfl, rfl⟩

theorem checkInvariants_quiet {phase : CampaignLifecyclePhase Action} (hphase : phase ≠ .postCleanup) :
    Calls locale init (checkInvariants init phase) run IsQuiet := by
  apply (checkInvariants_calls phase).mono
  intro added hadded call hcall
  split at hadded
  · obtain ⟨settled, rfl⟩ := hadded
    rw [List.mem_singleton.mp hcall]
    cases phase with
    | postCleanup => exact absurd rfl hphase
    | _ => exact ⟨rfl, rfl⟩
  · rw [hadded] at hcall
    cases hcall

/-- The part of the loop body between the execution and the look at its outcome. -/
theorem aftermath_quiet (outcome : CampaignMetricOutcome) (action : Action) :
    Calls locale init (do
        if outcome.kind = "accepted" then reconcile init (.afterAction action)
        checkInvariants init (.afterAction action)) run IsQuiet := by
  have hchecks : ∀ after : CandidateRun World Context Action, after.context = run.context →
      Calls locale init (checkInvariants init (.afterAction action)) after IsQuiet :=
    fun _ _ => checkInvariants_quiet (by simp)
  split
  · exact (reconcile_quiet (.afterAction action)).bind (fun _ => IsQuiet) hchecks (fun _ h _ => h)
      fun _ _ hfirst hsecond => hfirst.append hsecond
  · exact hchecks run rfl

/-- What the body of the loop calls: the action, then what comes after an action. -/
def IsTurn (action : Action) (added : List (HookCall Context Action)) : Prop :=
  ∃ settled rest, added = .execute action settled :: rest ∧ IsQuiet rest

/-- The look at the outcome, which ends a turn. -/
def lookAt (init : CampaignInit World Context Action) (outcome : CampaignMetricOutcome) :
    CampaignM World Context Action PUnit :=
  if tolerates init.failOnRevert outcome then pure ⟨⟩
  else modify fun run => { run with passed := false }

/-- Once its action has settled, a turn makes the rest of its calls and looks at the outcome. -/
theorem turn_rest (action : Action) (settled : Settled CampaignMetricOutcome)
    (outcome : CampaignMetricOutcome) {middle : CandidateRun World Context Action}
    (hadds : run.Adds locale middle [.execute action settled]) (hcontext : middle.context = run.context)
    (hpassed : middle.passed = run.passed)
    (hfails : (HookCall.execute action settled : HookCall Context Action).fails init.failOnRevert
      = !tolerates init.failOnRevert outcome) :
    Settles (do
        if outcome.kind = "accepted" then reconcile init (.afterAction action)
        checkInvariants init (.afterAction action)
        lookAt init outcome) middle fun settled after =>
      ∃ added, run.Adds locale after added ∧ after.context = run.context ∧
        Verdict init run settled after added ∧ IsTurn action added := by
  have hassoc : (do
        if outcome.kind = "accepted" then reconcile init (.afterAction action)
        checkInvariants init (.afterAction action)
        lookAt init outcome) = (do
        if outcome.kind = "accepted" then reconcile init (.afterAction action)
        checkInvariants init (.afterAction action)) >>= fun _ => lookAt init outcome := by
    split
    · simp only [bind_assoc]
    · rfl
  rw [hassoc]
  apply settles_bind
  have haftermath : Calls locale init _ middle IsQuiet := aftermath_quiet outcome action
  apply Settles.mono haftermath
  intro result after hafter
  obtain ⟨rest, hrest, hcontext', hverdict, hquiet⟩ := hafter
  have hturn : IsTurn action (.execute action settled :: rest) := ⟨settled, rest, rfl, hquiet⟩
  cases result with
  | error thrown =>
      refine ⟨_, hadds.trans hrest, hcontext'.trans hcontext, ?_, hturn⟩
      have hfailed : rest.any (HookCall.fails init.failOnRevert) = true := hverdict
      simp [Verdict, hfailed]
  | ok _ =>
      have hkept : after.passed = (middle.passed && !rest.any (HookCall.fails init.failOnRevert)) := hverdict
      show Settles (lookAt init outcome) after _
      rw [lookAt]
      by_cases htolerated : tolerates init.failOnRevert outcome = true
      · rw [if_pos htolerated]
        apply settles_pure
        refine ⟨_, hadds.trans hrest, hcontext'.trans hcontext, ?_, hturn⟩
        simp [Verdict, hkept, hpassed, hfails, htolerated]
      · rw [if_neg htolerated]
        apply settles_modify
        obtain ⟨hcalls, hexecuted, hfailures, hmetrics⟩ := hadds.trans hrest
        refine ⟨_, ⟨hcalls, hexecuted, hfailures, hmetrics⟩, hcontext'.trans hcontext, ?_, hturn⟩
        simp [Verdict, hfails, htolerated]

theorem runAction_calls (action : Action) :
    Calls locale init (runAction locale init action) run (IsTurn action) := by
  unfold runAction
  apply settles_get_bind
  apply settles_bind
  apply settles_tryCatch
  apply settles_callHook
  intro settled world
  cases settled with
  | ok outcome =>
      apply settles_bind
      apply settles_modify
      apply turn_rest action (.ok outcome) outcome
      · exact ⟨rfl, rfl, by simp [HookCall.reported], rfl⟩
      · rfl
      · rfl
      · simp [HookCall.fails, HookCall.threw, HookCall.reported, HookCall.executed]
  | error thrown =>
      apply settles_pure
      apply settles_bind
      apply settles_modify
      apply turn_rest action (.error thrown) executionThrew
      · exact ⟨rfl, rfl, by simp [HookCall.reported], rfl⟩
      · rfl
      · rfl
      · rfl

/-- Calls whose executions are these actions in order, up to the first failure: nothing is executed after
a call that fails, and everything is where none does. -/
structure RunsInOrder (failOnRevert : Bool) (passed : Bool) (actions : List Action)
    (added : List (HookCall Context Action)) : Prop where
  during : ∀ call ∈ added, call.isDuring = true
  ordered : (added.filterMap HookCall.executed).map Prod.fst <+: actions
  stops : added.Pairwise fun earlier later => earlier.fails failOnRevert = true → later.executed = none
  idle : passed = false → ∀ call ∈ added, call.executed = none
  complete : passed = true → added.any (HookCall.fails failOnRevert) = false →
    (added.filterMap HookCall.executed).map Prod.fst = actions

omit [CampaignExecutableAction Action] in
theorem RunsInOrder.nothing (failOnRevert : Bool) (actions : List Action) :
    RunsInOrder failOnRevert false actions ([] : List (HookCall Context Action)) where
  during := fun _ h => absurd h List.not_mem_nil
  ordered := List.nil_prefix
  stops := List.Pairwise.nil
  idle := fun _ _ h => absurd h List.not_mem_nil
  complete := nofun

omit [CampaignExecutableAction Action] in
theorem IsQuiet.filterMap_executed (h : IsQuiet added) : added.filterMap HookCall.executed = [] := by
  rw [List.filterMap_eq_nil_iff]
  exact fun call hcall => (h call hcall).1

omit [CampaignExecutableAction Action] in
/-- A turn, and the run of the other actions that it leaves. -/
theorem IsTurn.inOrder {failOnRevert : Bool} {action : Action} {rest : List Action}
    (hturn : IsTurn action added)
    (hothers : RunsInOrder failOnRevert (!added.any (HookCall.fails failOnRevert)) rest others) :
    RunsInOrder failOnRevert true (action :: rest) (added ++ others) := by
  obtain ⟨settled, quiet, rfl, hquiet⟩ := hturn
  have hexecuted : ∃ outcome, ((HookCall.execute action settled :: quiet : List (HookCall Context Action))
      ++ others).filterMap HookCall.executed = (action, outcome) :: others.filterMap HookCall.executed := by
    cases settled with
    | ok outcome =>
        exact ⟨outcome, by simp [HookCall.executed, hquiet.filterMap_executed]⟩
    | error thrown =>
        exact ⟨executionThrew, by simp [HookCall.executed, hquiet.filterMap_executed]⟩
  obtain ⟨outcome, hexecuted⟩ := hexecuted
  refine ⟨?_, ?_, ?_, nofun, ?_⟩
  · intro call hcall
    rcases List.mem_append.mp hcall with hcall | hcall
    · cases List.mem_cons.mp hcall with
      | inl heq => rw [heq]; rfl
      | inr hmem => exact (hquiet call hmem).2
    · exact hothers.during call hcall
  · rw [hexecuted, List.map_cons]
    exact (List.prefix_cons_inj action).mpr hothers.ordered
  · rw [List.pairwise_append, List.pairwise_cons]
    refine ⟨⟨fun call hcall _ => (hquiet call hcall).1, ?_⟩, hothers.stops, ?_⟩
    · apply List.pairwise_of_forall_mem_list
      exact fun _ _ call hcall _ => (hquiet call hcall).1
    · -- After a failure nothing else is run.
      intro call hcall other hother hfails
      have hfailed := List.any_eq_true.mpr ⟨call, hcall, hfails⟩
      exact hothers.idle (by rw [hfailed]; rfl) other hother
  · intro _ hnone
    rw [List.any_append, Bool.or_eq_false_iff] at hnone
    rw [hexecuted, List.map_cons, hothers.complete (by rw [hnone.1]; rfl) hnone.2]

theorem runActions_calls (actions : List Action) :
    Calls locale init (runActions locale init actions) run
      (RunsInOrder init.failOnRevert run.passed actions) := by
  induction actions generalizing run with
  | nil =>
      refine calls_pure ⟨?_, List.nil_prefix, List.Pairwise.nil, ?_, fun _ _ => rfl⟩
      · exact fun _ h => absurd h List.not_mem_nil
      · exact fun _ _ h => absurd h List.not_mem_nil
  | cons action rest ih =>
      unfold runActions
      apply settles_get_bind
      split
      · rename_i hpassed
        have hturn : Calls locale init _ run (IsTurn action) := runAction_calls action
        apply hturn.bind (fun passed => RunsInOrder init.failOnRevert passed rest) (fun _ _ => ih)
        · intro added hadded hfails
          have hinOrder : RunsInOrder init.failOnRevert true (action :: rest) (added ++ []) :=
            hadded.inOrder (by rw [hfails]; exact .nothing _ rest)
          rw [List.append_nil] at hinOrder
          rw [hpassed]
          exact hinOrder
        · intro added others hadded hothers
          rw [hpassed, Bool.true_and] at hothers
          rw [hpassed]
          exact hadded.inOrder hothers
      · rename_i hstopped
        rw [Bool.not_eq_true] at hstopped
        rw [hstopped]
        exact calls_pure (.nothing _ _)

omit [CampaignExecutableAction Action] in
/-- Checks before the actions. -/
theorem RunsInOrder.after_quiet {failOnRevert passed : Bool} {actions : List Action} (hquiet : IsQuiet added)
    (h : RunsInOrder failOnRevert (passed && !added.any (HookCall.fails failOnRevert)) actions others) :
    RunsInOrder failOnRevert passed actions (added ++ others) := by
  have hexecuted : (added ++ others).filterMap HookCall.executed = others.filterMap HookCall.executed := by
    rw [List.filterMap_append, hquiet.filterMap_executed, List.nil_append]
  refine ⟨?_, ?_, ?_, ?_, ?_⟩
  · intro call hcall
    cases List.mem_append.mp hcall with
    | inl hmem => exact (hquiet call hmem).2
    | inr hmem => exact h.during call hmem
  · rw [hexecuted]
    exact h.ordered
  · rw [List.pairwise_append]
    refine ⟨?_, h.stops, ?_⟩
    · apply List.pairwise_of_forall_mem_list
      exact fun _ _ call hcall _ => (hquiet call hcall).1
    · intro call hcall other hother hfails
      have hfailed := List.any_eq_true.mpr ⟨call, hcall, hfails⟩
      exact h.idle (by rw [hfailed, Bool.not_true, Bool.and_false]) other hother
  · intro hpassed call hcall
    cases List.mem_append.mp hcall with
    | inl hmem => exact (hquiet call hmem).1
    | inr hmem => exact h.idle (by rw [hpassed, Bool.false_and]) call hmem
  · intro hpassed hnone
    rw [List.any_append, Bool.or_eq_false_iff] at hnone
    rw [hexecuted]
    exact h.complete (by rw [hpassed, hnone.1]; rfl) hnone.2

omit [CampaignExecutableAction Action] in
/-- Checks after the actions. -/
theorem RunsInOrder.before_quiet {failOnRevert passed : Bool} {actions : List Action}
    (h : RunsInOrder failOnRevert passed actions added) (hquiet : IsQuiet others) :
    RunsInOrder failOnRevert passed actions (added ++ others) := by
  have hexecuted : (added ++ others).filterMap HookCall.executed = added.filterMap HookCall.executed := by
    rw [List.filterMap_append, hquiet.filterMap_executed, List.append_nil]
  refine ⟨?_, ?_, ?_, ?_, ?_⟩
  · intro call hcall
    cases List.mem_append.mp hcall with
    | inl hmem => exact h.during call hmem
    | inr hmem => exact (hquiet call hmem).2
  · rw [hexecuted]
    exact h.ordered
  · rw [List.pairwise_append]
    refine ⟨h.stops, ?_, fun _ _ other hother _ => (hquiet other hother).1⟩
    apply List.pairwise_of_forall_mem_list
    exact fun _ _ call hcall _ => (hquiet call hcall).1
  · intro hpassed call hcall
    cases List.mem_append.mp hcall with
    | inl hmem => exact h.idle hpassed call hmem
    | inr hmem => exact (hquiet call hmem).1
  · intro hpassed hnone
    rw [List.any_append, Bool.or_eq_false_iff] at hnone
    rw [hexecuted]
    exact h.complete hpassed hnone.1

/-- A quiet part that comes before the actions. -/
theorem Calls.before_actions {x y : CampaignM World Context Action PUnit} {actions : List Action}
    (hx : Calls locale init x run IsQuiet)
    (hy : ∀ after : CandidateRun World Context Action, after.context = run.context →
      Calls locale init y after (RunsInOrder init.failOnRevert after.passed actions)) :
    Calls locale init (x >>= fun _ => y) run (RunsInOrder init.failOnRevert run.passed actions) := by
  apply hx.bind (fun passed => RunsInOrder init.failOnRevert passed actions) hy
  · intro added hquiet hfails
    have hnothing : RunsInOrder init.failOnRevert run.passed actions (added ++ []) :=
      .after_quiet hquiet (by rw [hfails, Bool.not_true, Bool.and_false]; exact .nothing _ actions)
    rwa [List.append_nil] at hnothing
  · exact fun added others hquiet hothers => .after_quiet hquiet hothers

/-- Everything in the `try` block after the setup. -/
theorem hooks_calls (actions : List Action) :
    Calls locale init (do
        reconcile init .beforeRun
        checkInvariants init .beforeRun
        runActions locale init actions
        if (← get).passed then checkInvariants init .afterRun) run
      (RunsInOrder init.failOnRevert run.passed actions) := by
  apply (reconcile_quiet .beforeRun).before_actions
  intro after _
  apply (checkInvariants_quiet (by simp)).before_actions
  intro after _
  apply (runActions_calls actions).bind fun _ => IsQuiet
  · intro last _
    apply settles_get_bind
    split
    · exact checkInvariants_quiet (by simp)
    · exact calls_pure fun _ h => absurd h List.not_mem_nil
  · exact fun added hadded _ => hadded
  · exact fun added others hadded hothers => hadded.before_quiet hothers

/-- A part whose throws are caught. -/
theorem Calls.caught {x : CampaignM World Context Action PUnit}
    {kind : List (HookCall Context Action) → Prop} (h : Calls locale init x run kind) :
    Settles (tryCatch x fun _ => noteThrow) run fun settled after =>
      settled = .ok ⟨⟩ ∧ ∃ added, run.Adds locale after added ∧ after.context = run.context ∧
        after.passed = (run.passed && !added.any (HookCall.fails init.failOnRevert)) ∧ kind added := by
  apply settles_tryCatch
  apply Settles.mono h
  intro settled after hafter
  obtain ⟨added, hadds, hcontext, hverdict, hkind⟩ := hafter
  cases settled with
  | ok _ => exact ⟨rfl, added, hadds, hcontext, hverdict, hkind⟩
  | error thrown =>
      obtain ⟨hcalls, hexecuted, hfailures, hmetrics⟩ := hadds
      apply settles_modify
      refine ⟨rfl, added, ⟨hcalls, hexecuted, hfailures, hmetrics⟩, hcontext, ?_, hkind⟩
      have hfailed : added.any (HookCall.fails init.failOnRevert) = true := hverdict
      rw [hfailed, Bool.not_true, Bool.and_false]

/-! ### The whole run -/

/-- The context that a setup gives. -/
def givenContext : Settled (Option Context) → Option Context
  | .ok context => context
  | .error _ => none

theorem CandidateRun.adds_setup (world world' : World) (context : Option Context) :
    (CandidateRun.start world : CandidateRun World Context Action).Adds locale
      ⟨world', [.setup (.ok context)], createCampaignMetrics, [], [], context, none, true⟩
      [.setup (.ok context)] :=
  ⟨rfl, rfl, rfl, rfl⟩

/-- The `try` block and its `catch`. -/
theorem try_calls (actions : List Action) (world : World) :
    Settles (tryCatch (runHooks locale init actions) fun _ => noteThrow) (.start world) fun settled after =>
      settled = .ok ⟨⟩ ∧ ∃ setup rest,
        (CandidateRun.start world).Adds locale after (.setup setup :: rest) ∧
        after.context = givenContext setup ∧
        after.passed = !(HookCall.setup setup :: rest : List (HookCall Context Action)).any
          (HookCall.fails init.failOnRevert) ∧
        RunsInOrder init.failOnRevert (HookCall.setup setup : HookCall Context Action).setsUp actions rest := by
  unfold runHooks
  apply settles_tryCatch
  apply settles_bind
  apply settles_callHook
  intro setup world'
  cases setup with
  | error thrown =>
      apply settles_modify
      refine ⟨rfl, .error thrown, [], ⟨rfl, rfl, rfl, rfl⟩, rfl, ?_, .nothing _ _⟩
      simp [HookCall.fails, HookCall.threw]
  | ok context =>
      apply settles_bind
      apply settles_modify
      have hhooks : ∀ middle : CandidateRun World Context Action, Calls locale init _ middle _ :=
        fun _ => hooks_calls actions
      refine Settles.mono (hhooks _) ?_
      intro settled after hafter
      obtain ⟨rest, hadds, hcontext, hverdict, hrest⟩ := hafter
      have hsetup : (CandidateRun.start world : CandidateRun World Context Action).Adds locale _ _ :=
        CandidateRun.adds_setup world world' context
      have hsame : (HookCall.setup (.ok context) : HookCall Context Action).fails init.failOnRevert = false := rfl
      cases settled with
      | ok _ =>
          have hpassed : after.passed = (true && !rest.any (HookCall.fails init.failOnRevert)) := hverdict
          refine ⟨rfl, .ok context, rest, hsetup.trans hadds, hcontext, ?_, hrest⟩
          rw [hpassed, List.any_cons, hsame, Bool.false_or, Bool.true_and]
      | error thrown =>
          have hfailed : rest.any (HookCall.fails init.failOnRevert) = true := hverdict
          obtain ⟨hcalls, hexecuted, hfailures, hmetrics⟩ := hsetup.trans hadds
          apply settles_modify
          refine ⟨rfl, .ok context, rest, ⟨hcalls, hexecuted, hfailures, hmetrics⟩, hcontext, ?_, hrest⟩
          rw [List.any_cons, hfailed, Bool.or_true, Bool.not_true]

/-- The call of the cleanup hook, where there is one. -/
theorem cleanupHook_calls (context : Context) :
    Calls locale init
      (match init.cleanupAsync with
        | none => pure ()
        | some cleanupAsync => callHook (cleanupAsync context) .cleanup) run fun added =>
      (if init.cleanupAsync.isSome then ∃ settled, added = [.cleanup settled] else added = []) := by
  split
  · rename_i hnone
    exact calls_pure (by simp [hnone])
  · rename_i hsome
    apply settles_callHook
    intro settled world
    refine ⟨[.cleanup settled], ⟨rfl, ?_, ?_, rfl⟩, rfl, ?_, by simp [hsome]⟩
    · simp [HookCall.executed]
    · simp [HookCall.reported]
    · cases settled with
      | ok _ => simp [Verdict, HookCall.fails, HookCall.threw, HookCall.reported, HookCall.executed]
      | error _ => simp [Verdict, HookCall.fails, HookCall.threw]

/-- The `finally` block cleans up and checks once, where there is a context. -/
theorem cleanUp_calls :
    Settles (cleanUp init) run fun _ after => ∃ added, run.Adds locale after added ∧
      after.passed = (run.passed && !added.any (HookCall.fails init.failOnRevert)) ∧
      (∀ call ∈ added, call.executed = none ∧ call.setsUp = false ∧ call.givesContext = false) ∧
      added.countP HookCall.isCleanup = (if run.context.isSome && init.cleanupAsync.isSome then 1 else 0) ∧
      added.countP HookCall.isPostCleanupCheck = if checks init run then 1 else 0 := by
  unfold cleanUp
  apply settles_get_bind
  cases hcontext : run.context with
  | none =>
      refine settles_pure ⟨[], ⟨?_, ?_, ?_, rfl⟩, ?_, fun _ h => absurd h List.not_mem_nil, ?_, ?_⟩
      · rw [List.append_nil]
      · rw [List.filterMap_nil, List.append_nil]
      · rw [List.flatMap_nil, List.append_nil]
      · rw [List.any_nil, Bool.not_false, Bool.and_true]
      · simp
      · simp [checks, hcontext]
  | some context =>
      apply settles_bind
      have hhook : Calls locale init _ run _ := cleanupHook_calls context
      refine Settles.mono hhook.caught ?_
      rintro _ middle ⟨rfl, cleaned, hcleaned, hsame, hpassed, hcleanup⟩
      have hlast : Calls locale init _ middle _ := checkInvariants_calls .postCleanup
      refine Settles.mono hlast.caught ?_
      rintro _ after ⟨rfl, checked, hchecked, _, hpassed', hcheck⟩
      have hchecks : checks init middle = checks init run := by rw [checks, checks, hsame]
      rw [hchecks] at hcheck
      refine ⟨cleaned ++ checked, hcleaned.trans hchecked, ?_, ?_, ?_, ?_⟩
      · rw [hpassed', hpassed, List.any_append, Bool.not_or, Bool.and_assoc]
      · intro call hcall
        rcases List.mem_append.mp hcall with hcall | hcall
        · split at hcleanup
          · obtain ⟨settled, rfl⟩ := hcleanup
            rw [List.mem_singleton.mp hcall]
            exact ⟨rfl, rfl, rfl⟩
          · rw [hcleanup] at hcall
            cases hcall
        · split at hcheck
          · obtain ⟨settled, rfl⟩ := hcheck
            rw [List.mem_singleton.mp hcall]
            exact ⟨rfl, rfl, rfl⟩
          · rw [hcheck] at hcall
            cases hcall
      · have hchecked : checked.countP HookCall.isCleanup = 0 := by
          split at hcheck
          · obtain ⟨settled, rfl⟩ := hcheck
            rfl
          · rw [hcheck]
            rfl
        rw [List.countP_append, hchecked, Option.isSome_some, Bool.true_and]
        split at hcleanup
        · rename_i hhook
          obtain ⟨settled, rfl⟩ := hcleanup
          rw [if_pos hhook]
          rfl
        · rename_i hhook
          rw [hcleanup, if_neg hhook]
          rfl
      · have hcleaned : cleaned.countP HookCall.isPostCleanupCheck = 0 := by
          split at hcleanup
          · obtain ⟨settled, rfl⟩ := hcleanup
            rfl
          · rw [hcleanup]
            rfl
        rw [List.countP_append, hcleaned]
        split at hcheck
        · rename_i hmade
          obtain ⟨settled, rfl⟩ := hcheck
          rw [if_pos hmade]
          rfl
        · rename_i hmade
          rw [hcheck, if_neg hmade]
          rfl

/-- The calls of a whole run: the setup, what it makes possible, and the cleanup. -/
structure RunsWhole (init : CampaignInit World Context Action) (actions : List Action)
    (setup : Settled (Option Context)) (rest cleaning : List (HookCall Context Action)) : Prop where
  body : RunsInOrder init.failOnRevert (HookCall.setup setup : HookCall Context Action).setsUp actions rest
  quiet : ∀ call ∈ cleaning,
    call.executed = none ∧ call.setsUp = false ∧ call.givesContext = false
  cleans : cleaning.countP HookCall.isCleanup
    = if (givenContext setup).isSome && init.cleanupAsync.isSome then 1 else 0
  checks : cleaning.countP HookCall.isPostCleanupCheck
    = if (givenContext setup).isSome && init.checkInvariantsAsync.isSome then 1 else 0

theorem candidate_run (actions : List Action) (world : World) :
    Settles (runCandidate locale init actions) (.start world) fun _ after => ∃ setup rest cleaning,
      (CandidateRun.start world).Adds locale after (.setup setup :: rest ++ cleaning) ∧
      after.passed = !(HookCall.setup setup :: rest ++ cleaning : List (HookCall Context Action)).any
        (HookCall.fails init.failOnRevert) ∧
      RunsWhole init actions setup rest cleaning := by
  unfold runCandidate
  apply settles_bind
  apply Settles.mono (try_calls actions world)
  rintro _ middle ⟨rfl, setup, rest, hadds, hcontext, hpassed, hbody⟩
  have hcleanup : Settles (cleanUp init) middle fun _ after => ∃ added, middle.Adds locale after added ∧ _ :=
    cleanUp_calls
  apply Settles.mono hcleanup
  rintro _ after ⟨cleaning, hcleaned, hpassed', hquiet, hcleans, hchecks⟩
  rw [hcontext] at hcleans
  rw [checks, hcontext] at hchecks
  refine ⟨setup, rest, cleaning, hadds.trans hcleaned, ?_, hbody, hquiet, hcleans, hchecks⟩
  rw [hpassed', hpassed, List.any_append, Bool.not_or]

end Parts

/-! ### The verdict -/

/-- The calls of a candidate, and what its result says of them. -/
structure HonestVerdict (init : CampaignInit World Context Action) (actions : List Action)
    (result : CandidateResult Action) (calls : List (HookCall Context Action)) : Prop where
  ordered : (calls.filterMap HookCall.executed).map Prod.fst <+: actions
  stops : calls.Pairwise fun earlier later =>
    earlier.fails init.failOnRevert = true → later.executed = none
  cleans_once : calls.countP HookCall.isCleanup
    = if calls.any HookCall.givesContext && init.cleanupAsync.isSome then 1 else 0
  checks_once : calls.countP HookCall.isPostCleanupCheck
    = if calls.any HookCall.givesContext && init.checkInvariantsAsync.isSome then 1 else 0
  actions_eq : result.trace.actions = calls.filterMap HookCall.executed
  failures_eq : result.trace.failures = calls.flatMap HookCall.reported
  passed_iff : result.passed = true ↔ actions.length = init.depth ∧
    calls.any HookCall.setsUp = true ∧
    (calls.filterMap HookCall.executed).map Prod.fst = actions ∧
    (∀ entry ∈ calls.filterMap HookCall.executed, tolerates init.failOnRevert entry.2 = true) ∧
    (∀ call ∈ calls, call.reported = []) ∧ ∀ call ∈ calls, call.threw = false

section Verdicts

variable {init : CampaignInit World Context Action} {calls : List (HookCall Context Action)}

/-- No call fails where every action is tolerated, no check reports anything and no hook throws. -/
theorem any_fails_eq_false {failOnRevert : Bool} :
    calls.any (HookCall.fails failOnRevert) = false ↔
      (∀ entry ∈ calls.filterMap HookCall.executed, tolerates failOnRevert entry.2 = true) ∧
      (∀ call ∈ calls, call.reported = []) ∧ ∀ call ∈ calls, call.threw = false := by
  simp only [List.any_eq_false, HookCall.fails, Bool.not_eq_true, Bool.or_eq_false_iff,
    Bool.not_eq_false', List.isEmpty_iff, Option.any_eq_false, List.mem_filterMap]
  constructor
  · intro h
    refine ⟨?_, fun call hcall => (h call hcall).1.2, fun call hcall => (h call hcall).1.1⟩
    rintro entry ⟨call, hcall, hentry⟩
    exact (h call hcall).2 entry hentry
  · rintro ⟨htolerated, hreported, hthrew⟩ call hcall
    exact ⟨⟨hthrew call hcall, hreported call hcall⟩, fun entry hentry =>
      htolerated entry ⟨call, hcall, hentry⟩⟩

section Whole

variable {actions : List Action} {setup : Settled (Option Context)}
  {rest cleaning : List (HookCall Context Action)} (h : RunsWhole init actions setup rest cleaning)

include h

theorem RunsWhole.executed :
    (.setup setup :: rest ++ cleaning).filterMap HookCall.executed = rest.filterMap HookCall.executed := by
  have hcleaning : cleaning.filterMap HookCall.executed = [] := by
    rw [List.filterMap_eq_nil_iff]
    exact fun call hcall => (h.quiet call hcall).1
  rw [List.filterMap_append, hcleaning, List.append_nil]
  rfl

theorem RunsWhole.stops :
    (.setup setup :: rest ++ cleaning).Pairwise fun earlier later =>
      earlier.fails init.failOnRevert = true → later.executed = none := by
  have hlast : ∀ call ∈ cleaning, call.executed = none := fun call hcall => (h.quiet call hcall).1
  rw [List.pairwise_append, List.pairwise_cons]
  refine ⟨⟨?_, h.body.stops⟩, ?_, fun _ _ call hcall _ => hlast call hcall⟩
  · intro call hcall hfails
    cases setup with
    | ok context => cases hfails
    | error thrown => exact h.body.idle rfl call hcall
  · apply List.pairwise_of_forall_mem_list
    exact fun _ _ call hcall _ => hlast call hcall

theorem RunsWhole.givesContext :
    (.setup setup :: rest ++ cleaning).any HookCall.givesContext = (givenContext setup).isSome := by
  have hbody : rest.any HookCall.givesContext = false := by
    rw [List.any_eq_false]
    intro call hcall
    rw [HookCall.not_givesContext (h.body.during call hcall)]
    exact Bool.false_ne_true
  have hlast : cleaning.any HookCall.givesContext = false := by
    rw [List.any_eq_false]
    intro call hcall
    rw [(h.quiet call hcall).2.2]
    exact Bool.false_ne_true
  rw [List.any_append, List.any_cons, hbody, hlast, Bool.or_false, Bool.or_false]
  cases setup with
  | ok context => cases context <;> rfl
  | error thrown => rfl

theorem RunsWhole.countP {kind : HookCall Context Action → Bool}
    (hsetup : kind (.setup setup) = false) (hduring : ∀ call, call.isDuring = true → kind call = false) :
    (.setup setup :: rest ++ cleaning).countP kind = cleaning.countP kind := by
  have hbody : rest.countP kind = 0 := by
    rw [List.countP_eq_zero]
    intro call hcall
    rw [hduring call (h.body.during call hcall)]
    exact Bool.false_ne_true
  rw [List.countP_append, List.countP_cons, hbody, hsetup]
  simp

/-- A run without failures has been set up and has executed everything. -/
theorem RunsWhole.complete
    (hnone : (.setup setup :: rest ++ cleaning).any (HookCall.fails init.failOnRevert) = false) :
    (.setup setup :: rest ++ cleaning).any HookCall.setsUp = true ∧
      (rest.filterMap HookCall.executed).map Prod.fst = actions := by
  rw [List.any_append, List.any_cons, Bool.or_eq_false_iff, Bool.or_eq_false_iff] at hnone
  cases setup with
  | error thrown => cases hnone.1.1
  | ok context => exact ⟨rfl, h.body.complete rfl hnone.1.2⟩

/-- What such a run leaves behind is an honest verdict. -/
theorem RunsWhole.honest [CampaignExecutableAction Action] {locale : Collation} {world : World}
    {after : CandidateRun World Context Action} (hdepth : actions.length = init.depth)
    (hadds : (CandidateRun.start world).Adds locale after (.setup setup :: rest ++ cleaning))
    (hpassed : after.passed
      = !(HookCall.setup setup :: rest ++ cleaning : List (HookCall Context Action)).any
        (HookCall.fails init.failOnRevert)) :
    HonestVerdict init actions
      ⟨after.passed, ⟨after.executed, after.failures, after.metrics, after.failureKind⟩⟩ after.calls := by
  have hcalls : after.calls = .setup setup :: rest ++ cleaning := hadds.calls
  rw [hcalls]
  refine ⟨?_, h.stops, ?_, ?_, hadds.executed, hadds.failures, ?_⟩
  · rw [h.executed]
    exact h.body.ordered
  · rw [h.givesContext, h.countP rfl fun _ => HookCall.not_isCleanup]
    exact h.cleans
  · rw [h.givesContext, h.countP rfl fun _ => HookCall.not_isPostCleanupCheck]
    exact h.checks
  · rw [hpassed, Bool.not_eq_true', h.executed]
    constructor
    · intro hnone
      obtain ⟨hsetup, hcomplete⟩ := h.complete hnone
      have hfine := any_fails_eq_false.mp hnone
      rw [h.executed] at hfine
      exact ⟨hdepth, hsetup, hcomplete, hfine⟩
    · rintro ⟨_, _, _, hfine⟩
      rw [← h.executed] at hfine
      exact any_fails_eq_false.mpr hfine

end Whole

end Verdicts

/-! ### The metrics -/

section Metrics

variable [CampaignExecutableAction Action] {locale : Collation}

/-- Recorded actions count once each, under their actor and under their target. -/
theorem countOf_recordAll (locale : Collation) (metrics : CampaignMetrics) (executed : List (Action × CampaignMetricOutcome))
    (key kind : String) :
    countOf (recordAll locale metrics executed).byActor key kind
      = countOf metrics.byActor key kind + executed.countP (fun entry =>
        decide (key = CampaignExecutableAction.actor entry.1 ∧ kind = entry.2.kind)) ∧
    countOf (recordAll locale metrics executed).byTarget key kind
      = countOf metrics.byTarget key kind + executed.countP (fun entry =>
        decide (key = CampaignExecutableAction.targetKey entry.1 ∧ kind = entry.2.kind)) := by
  induction executed generalizing metrics with
  | nil => exact ⟨rfl, rfl⟩
  | cons entry rest ih =>
      obtain ⟨hactor, htarget⟩ := ih (recordCampaignAction locale metrics
        (CampaignExecutableAction.actor entry.1) (CampaignExecutableAction.targetKey entry.1) entry.2)
      have hfirst : recordAll locale metrics (entry :: rest) = recordAll locale (recordCampaignAction locale
        metrics (CampaignExecutableAction.actor entry.1) (CampaignExecutableAction.targetKey entry.1)
        entry.2) rest := rfl
      rw [hfirst, hactor, htarget]
      simp only [recordCampaignAction, countOf_incrementMetric, List.countP_cons, decide_eq_true_eq]
      exact ⟨by ac_rfl, by ac_rfl⟩

/-- The metrics of a candidate count the actions of its trace. -/
theorem candidate_metrics (init : CampaignInit World Context Action) (actions : List Action) (world : World)
    (key kind : String) :
    countOf (runCampaignCandidate locale init actions world).1.trace.metrics.byActor key kind
      = (runCampaignCandidate locale init actions world).1.trace.actions.countP (fun entry =>
        decide (key = CampaignExecutableAction.actor entry.1 ∧ kind = entry.2.kind)) ∧
    countOf (runCampaignCandidate locale init actions world).1.trace.metrics.byTarget key kind
      = (runCampaignCandidate locale init actions world).1.trace.actions.countP (fun entry =>
        decide (key = CampaignExecutableAction.targetKey entry.1 ∧ kind = entry.2.kind)) := by
  rw [runCampaignCandidate]
  split
  · exact ⟨rfl, rfl⟩
  · have hruns : Settles (runCandidate locale init actions) (.start world) _ := candidate_run actions world
    obtain ⟨setup, rest, cleaning, hadds, _, _⟩ := hruns
    obtain ⟨hactor, htarget⟩ := countOf_recordAll locale createCampaignMetrics
      ((.setup setup :: rest ++ cleaning : List (HookCall Context Action)).filterMap HookCall.executed) key kind
    have hexecuted : (runCandidate locale init actions (.start world)).2.executed = _ := hadds.executed
    have hmetrics : (runCandidate locale init actions (.start world)).2.metrics = _ := hadds.metrics
    simp only [hexecuted, hmetrics]
    exact ⟨hactor.trans (Nat.zero_add _), htarget.trans (Nat.zero_add _)⟩

end Metrics

end CantonSdk.Testing
