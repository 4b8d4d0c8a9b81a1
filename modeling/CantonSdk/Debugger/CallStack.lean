import CantonSdk.Debugger.StepProjection

/-!
# The stack that is found from a trace

The loader is told no more than the frame of each step. What it makes of that is a stack whatever the trace is: no frame
stands on it twice, and from one step to the next only its top changes. Where a trace is that of calls and expressions
which stand one inside the other, the stack is the chain of those that are open.
-/

set_option linter.all false

namespace CantonSdk.Debugger

open CantonSdk.Base CantonSdk.DamlLf.Interpreter

/-! ## Every trace -/

/-- The later stack is the earlier one, cut off somewhere, with at most one frame put on top. -/
def OnlyTopChanges (earlier later : List ReplayStackFrame) : Prop :=
  ∃ kept, kept <+: earlier ∧ (later = kept ∨ ∃ frame, later = kept ++ [frame])

def frameIds (stack : List ReplayStackFrame) : List Nat := stack.map (·.frameId)

theorem nodup_pushFrameIfMissing {activeFrames : List ReplayStackFrame} (h : (frameIds activeFrames).Nodup)
    (frame : ReplayStackFrame) : (frameIds (pushFrameIfMissing activeFrames frame)).Nodup := by
  rw [pushFrameIfMissing]
  split
  · exact h.sublist ((List.take_sublist _ _).map _)
  · next hnone =>
      rw [frameIds, List.map_append]
      refine h.append (List.nodup_singleton _) ?_
      intro frameId hmem hframe
      obtain rfl := List.mem_singleton.mp hframe
      obtain ⟨other, hother, hsame⟩ := List.mem_map.mp hmem
      have hdifferent := List.findIdx?_eq_none_iff.mp hnone other hother
      exact absurd hsame (by simpa using hdifferent)

theorem pushFrameIfMissing_changes (activeFrames : List ReplayStackFrame) (frame : ReplayStackFrame) :
    OnlyTopChanges activeFrames (pushFrameIfMissing activeFrames frame) := by
  rw [pushFrameIfMissing]
  split
  · exact ⟨_, List.take_prefix _ _, Or.inl rfl⟩
  · exact ⟨activeFrames, List.prefix_refl _, Or.inr ⟨frame, rfl⟩⟩

theorem popFrameIfTop_cuts (activeFrames : List ReplayStackFrame) (frameId : Nat) :
    popFrameIfTop activeFrames frameId <+: activeFrames := by
  rw [popFrameIfTop]
  split
  · exact List.dropLast_prefix _
  · exact List.prefix_refl _

theorem finalizeStackForStep_cuts (state : ProjectionState) (traceStep : TraceStep) :
    (finalizeStackForStep state traceStep).activeFrames <+: state.activeFrames := by
  rw [finalizeStackForStep]
  dsimp only
  split
  · split
    · exact popFrameIfTop_cuts _ _
    · exact List.prefix_refl _
  · exact popFrameIfTop_cuts _ _
  · exact List.prefix_refl _

theorem activeFrames_rememberStateEffect (state : ProjectionState) (traceStep : TraceStep) :
    (rememberStateEffect state traceStep).activeFrames = state.activeFrames := by
  rw [rememberStateEffect]
  split <;> rfl

/-- The state after a step. -/
def advanceStack (dependencies : LoaderDependencies) (state : ProjectionState) (traceStep : TraceStep) : ProjectionState :=
  finalizeStackForStep (rememberStateEffect (prepareStackForStep dependencies state traceStep) traceStep) traceStep

theorem advanceStack_cuts (dependencies : LoaderDependencies) (state : ProjectionState) (traceStep : TraceStep) :
    (advanceStack dependencies state traceStep).activeFrames
      <+: (prepareStackForStep dependencies state traceStep).activeFrames := by
  have h := finalizeStackForStep_cuts (rememberStateEffect (prepareStackForStep dependencies state traceStep) traceStep)
    traceStep
  rwa [activeFrames_rememberStateEffect] at h

theorem OnlyTopChanges.of_cut {cut earlier later : List ReplayStackFrame} (hcut : cut <+: earlier)
    (h : OnlyTopChanges cut later) : OnlyTopChanges earlier later := by
  obtain ⟨kept, hkept, hlater⟩ := h
  exact ⟨kept, hkept.trans hcut, hlater⟩

/-- The stacks of the steps, from a state on. -/
def stacksFrom (dependencies : LoaderDependencies) (state : ProjectionState) : List TraceStep → List (List ReplayStackFrame)
  | [] => []
  | traceStep :: rest =>
      (prepareStackForStep dependencies state traceStep).activeFrames
        :: stacksFrom dependencies (advanceStack dependencies state traceStep) rest

theorem stacks_projectStepsFrom (dependencies : LoaderDependencies) (state : ProjectionState) (stepIndex : Nat)
    (traceSteps : List TraceStep) :
    (projectStepsFrom dependencies state stepIndex traceSteps).map (·.step.stackFrames)
      = stacksFrom dependencies state traceSteps := by
  induction traceSteps generalizing state stepIndex with
  | nil => rfl
  | cons traceStep rest ih => exact congrArg _ (ih _ _)

/-- The state before the first step. -/
def ProjectionState.initial (contracts : KeyedMap String HydratedContract) : ProjectionState :=
  ⟨[], KeyedMap.empty, KeyedMap.empty, createContractTypeIndex contracts⟩

theorem stacks_projectRawReplaySteps (dependencies : LoaderDependencies) (contracts : KeyedMap String HydratedContract)
    (traceSteps : List TraceStep) :
    (projectRawReplaySteps dependencies contracts traceSteps).map (·.step.stackFrames)
      = stacksFrom dependencies (.initial contracts) traceSteps :=
  stacks_projectStepsFrom dependencies (.initial contracts) 0 traceSteps

section EveryTrace

variable (dependencies : LoaderDependencies)

theorem nodup_prepareStackForStep {state : ProjectionState} (h : (frameIds state.activeFrames).Nodup)
    (traceStep : TraceStep) :
    (frameIds (prepareStackForStep dependencies state traceStep).activeFrames).Nodup := by
  rw [activeFrames_prepareStackForStep]
  exact nodup_pushFrameIfMissing h _

theorem nodup_stacksFrom {state : ProjectionState} (h : (frameIds state.activeFrames).Nodup) (traceSteps : List TraceStep) :
    ∀ stack ∈ stacksFrom dependencies state traceSteps, (frameIds stack).Nodup := by
  induction traceSteps generalizing state with
  | nil => exact fun _ hstack => absurd hstack List.not_mem_nil
  | cons traceStep rest ih =>
      have hprepared := nodup_prepareStackForStep dependencies h traceStep
      have hnext := hprepared.sublist ((advanceStack_cuts dependencies state traceStep).sublist.map _)
      exact List.forall_mem_cons.mpr ⟨hprepared, ih hnext⟩

theorem isChain_stacksFrom (state : ProjectionState) (traceSteps : List TraceStep) :
    (stacksFrom dependencies state traceSteps).IsChain OnlyTopChanges := by
  induction traceSteps generalizing state with
  | nil => exact List.IsChain.nil
  | cons traceStep rest ih =>
      cases rest with
      | nil => exact List.IsChain.singleton _
      | cons following rest =>
          refine List.IsChain.cons_cons ?_ (ih _)
          rw [activeFrames_prepareStackForStep dependencies (advanceStack dependencies state traceStep)]
          exact (pushFrameIfMissing_changes _ _).of_cut (advanceStack_cuts dependencies state traceStep)

/-- Whatever the trace: on the stack of each step no frame stands twice and the frame of the step is on top, from each step to
the next only the top of the stack changes, and the steps that are kept have the stacks of steps of the trace. -/
theorem stacks_of_every_trace (contracts : KeyedMap String HydratedContract) (traceSteps : List TraceStep) :
    (∀ projected ∈ projectRawReplaySteps dependencies contracts traceSteps,
        (frameIds projected.step.stackFrames).Nodup ∧
          (frameIds projected.step.stackFrames).getLast? = some projected.traceStep.frame.frameId) ∧
      ((projectRawReplaySteps dependencies contracts traceSteps).map (·.step.stackFrames)).IsChain OnlyTopChanges ∧
      ∀ step ∈ projectReplaySteps dependencies contracts traceSteps, step.stackFrames ≠ [] ∧
        step.stackFrames ∈ (projectRawReplaySteps dependencies contracts traceSteps).map (·.step.stackFrames) := by
  refine ⟨fun projected hprojected => ⟨?_, ?_⟩, ?_, fun step hstep => ⟨stackFrames_ne_nil step hstep, ?_⟩⟩
  · have hinitial : (frameIds (ProjectionState.initial contracts).activeFrames).Nodup := List.nodup_nil
    refine nodup_stacksFrom dependencies hinitial traceSteps _ ?_
    rw [← stacks_projectRawReplaySteps]
    exact List.mem_map_of_mem hprojected
  · rw [frameIds, List.getLast?_map]
    exact getLast_projectStepsFrom projected hprojected
  · rw [stacks_projectRawReplaySteps]
    exact isChain_stacksFrom dependencies _ traceSteps
  · obtain ⟨rawStep, hraw, heq⟩ := stackFrames_projectReplaySteps step hstep
    exact List.mem_map.mpr ⟨rawStep, hraw, heq⟩

end EveryTrace

/-! ## Depths -/

/-- How often a frame has been entered and not left, by a map of depths. -/
def depthOf (depth : KeyedMap Nat Nat) (frameId : Nat) : Nat := (depth.get frameId).getD 0

theorem depthOf_increaseDepth (depth : KeyedMap Nat Nat) (frameId other : Nat) :
    depthOf (increaseDepth depth frameId) other
      = if other = frameId then depthOf depth frameId + 1 else depthOf depth other := by
  rw [depthOf, increaseDepth, KeyedMap.get_set]
  split
  · rfl
  · rfl

theorem get_delete_depth (depth : KeyedMap Nat Nat) (frameId other : Nat) :
    (depth.delete frameId).get other = if other = frameId then none else depth.get other := by
  split
  · next heq =>
      rw [KeyedMap.get_eq_none, KeyedMap.mem_keys_delete]
      exact fun h => h.2 heq
  · next hne =>
      apply Option.ext
      intro value
      rw [KeyedMap.get_eq_some, KeyedMap.get_eq_some, KeyedMap.mem_entries_delete]
      exact ⟨fun h => h.1, fun h => ⟨h, hne⟩⟩

/-- Leaving a frame that has been entered. -/
theorem decreaseDepth_entered {depth : KeyedMap Nat Nat} {frameId before : Nat} (h : depthOf depth frameId = before + 1) :
    (∀ other, depthOf (decreaseDepth depth frameId) other = if other = frameId then before else depthOf depth other) ∧
      ((decreaseDepth depth frameId).get frameId = none ↔ before = 0) := by
  have hdepth : depth.get frameId = some (before + 1) := by
    rw [depthOf] at h
    cases hget : depth.get frameId with
    | none =>
        rw [hget] at h
        cases h
    | some value =>
        rw [hget] at h
        exact congrArg some h
  rw [decreaseDepth, hdepth]
  simp only [Option.getD_some, Nat.add_sub_cancel]
  by_cases hzero : before = 0
  · rw [if_pos hzero]
    refine ⟨fun other => ?_, ?_⟩
    · rw [depthOf, get_delete_depth, hzero]
      split
      · rfl
      · rfl
    · rw [get_delete_depth, if_pos rfl]
      exact iff_of_true rfl hzero
  · rw [if_neg hzero]
    refine ⟨fun other => ?_, ?_⟩
    · rw [depthOf, KeyedMap.get_set]
      split
      · rfl
      · rfl
    · rw [KeyedMap.get_set, if_pos rfl]
      exact iff_of_false (Option.some_ne_none before) hzero

/-- Leaving the frame that was entered last brings the depths back that were there before. -/
theorem decreaseDepth_restores {entered : KeyedMap Nat Nat} {before : Nat → Nat} {frameId : Nat}
    (h : ∀ other, depthOf entered other = if other = frameId then before frameId + 1 else before other) :
    (∀ other, depthOf (decreaseDepth entered frameId) other = before other) ∧
      ((decreaseDepth entered frameId).get frameId = none ↔ before frameId = 0) := by
  have hdepth : depthOf entered frameId = before frameId + 1 := by rw [h, if_pos rfl]
  obtain ⟨hdecreased, hgone⟩ := decreaseDepth_entered hdepth
  refine ⟨fun other => ?_, hgone⟩
  rw [hdecreased, h]
  split
  · next heq => rw [heq]
  · rfl

/-! ## Traces of calls -/

/-- What goes on in a frame: an effect, an expression with what goes on inside of it, or a call with what goes on in the frame
that is called. -/
inductive Activity
  | effect (step : TraceStep)
  | expression (enter : TraceStep) (inside : List Activity) (exit : TraceStep)
  | call (enter : TraceStep) (inside : List Activity) (exit : TraceStep)

mutual

/-- The steps that are told of an activity. -/
def Activity.trace : Activity → List TraceStep
  | .effect step => [step]
  | .expression enter inside exit | .call enter inside exit => enter :: (tracesOf inside ++ [exit])

def tracesOf : List Activity → List TraceStep
  | [] => []
  | activity :: rest => activity.trace ++ tracesOf rest

end

section Tree

variable (dependencies : LoaderDependencies)

/-- The frame of a step, by the name it has there. -/
def frameOf (traceStep : TraceStep) : ReplayStackFrame :=
  ⟨traceStep.frame.frameId, resolveFrameName dependencies.sourceMapper traceStep⟩

def IsTop (stack : List ReplayStackFrame) (traceStep : TraceStep) : Prop :=
  (frameIds stack).getLast? = some traceStep.frame.frameId

instance (stack : List ReplayStackFrame) (traceStep : TraceStep) : Decidable (IsTop stack traceStep) :=
  inferInstanceAs (Decidable (_ = _))

/-- The frames that are open in an expression, which may be the first of its frame. -/
def openedBy (stack : List ReplayStackFrame) (enter : TraceStep) : List ReplayStackFrame :=
  if IsTop stack enter then stack else stack ++ [frameOf dependencies enter]

mutual

/-- The frames that are open at each step of an activity, the outermost first. -/
def Activity.openFrames (stack : List ReplayStackFrame) : Activity → List (List ReplayStackFrame)
  | .effect _ => [stack]
  | .expression enter inside _ =>
      let opened := openedBy dependencies stack enter
      opened :: (openFramesOf opened inside ++ [opened])
  | .call enter inside _ =>
      let opened := stack ++ [frameOf dependencies enter]
      opened :: (openFramesOf opened inside ++ [opened])

def openFramesOf (stack : List ReplayStackFrame) : List Activity → List (List ReplayStackFrame)
  | [] => []
  | activity :: rest => activity.openFrames stack ++ openFramesOf stack rest

end

mutual

/-- The activity goes on in the innermost of the open frames, and opens no frame that is open. -/
def Activity.TakesPlace (stack : List ReplayStackFrame) : Activity → Prop
  | .effect step => step.kind = .stateEffect ∧ IsTop stack step
  | .expression enter inside exit =>
      enter.kind = .enterExpression ∧ exit.kind = .exitExpression ∧ exit.frame.frameId = enter.frame.frameId ∧
        (IsTop stack enter ∨ enter.frame.frameId ∉ frameIds stack) ∧ TakePlace (openedBy dependencies stack enter) inside
  | .call enter inside exit =>
      enter.kind = .call ∧ exit.kind = .return ∧ exit.frame.frameId = enter.frame.frameId ∧
        enter.frame.frameId ∉ frameIds stack ∧ TakePlace (stack ++ [frameOf dependencies enter]) inside

def TakePlace (stack : List ReplayStackFrame) : List Activity → Prop
  | [] => True
  | activity :: rest => activity.TakesPlace stack ∧ TakePlace stack rest

end

/-- The state after steps. -/
def advanceStacks (state : ProjectionState) : List TraceStep → ProjectionState
  | [] => state
  | traceStep :: rest => advanceStacks (advanceStack dependencies state traceStep) rest

variable {dependencies} {stack : List ReplayStackFrame} {state : ProjectionState}

theorem stacksFrom_append (first second : List TraceStep) :
    stacksFrom dependencies state (first ++ second)
      = stacksFrom dependencies state first ++ stacksFrom dependencies (advanceStacks dependencies state first) second := by
  induction first generalizing state with
  | nil => rfl
  | cons traceStep rest ih => exact congrArg _ ih

theorem advanceStacks_append (first second : List TraceStep) :
    advanceStacks dependencies state (first ++ second)
      = advanceStacks dependencies (advanceStacks dependencies state first) second := by
  induction first generalizing state with
  | nil => rfl
  | cons traceStep rest ih => exact ih

/-- The state has this stack; every frame on it is kept there by a call or an expression that is open, and no other frame has
one. -/
structure HasStack (stack : List ReplayStackFrame) (state : ProjectionState) : Prop where
  frames : state.activeFrames = stack
  distinct : (frameIds stack).Nodup
  kept : ∀ frameId ∈ frameIds stack,
    0 < depthOf state.frameExpressionDepth frameId + depthOf state.frameCallDepth frameId
  others : ∀ frameId, frameId ∉ frameIds stack →
    depthOf state.frameExpressionDepth frameId = 0 ∧ depthOf state.frameCallDepth frameId = 0

/-- Two states that differ in the types of contracts alone. -/
structure SameFrames (first second : ProjectionState) : Prop where
  frames : second.activeFrames = first.activeFrames
  expressions : ∀ frameId, depthOf second.frameExpressionDepth frameId = depthOf first.frameExpressionDepth frameId
  calls : ∀ frameId, depthOf second.frameCallDepth frameId = depthOf first.frameCallDepth frameId

theorem SameFrames.refl (state : ProjectionState) : SameFrames state state := ⟨rfl, fun _ => rfl, fun _ => rfl⟩

theorem SameFrames.trans {first second third : ProjectionState} (h : SameFrames first second)
    (h' : SameFrames second third) : SameFrames first third :=
  ⟨h'.frames.trans h.frames, fun frameId => (h'.expressions frameId).trans (h.expressions frameId),
    fun frameId => (h'.calls frameId).trans (h.calls frameId)⟩

theorem HasStack.of_sameFrames {other : ProjectionState} (h : HasStack stack state) (hsame : SameFrames state other) :
    HasStack stack other where
  frames := hsame.frames.trans h.frames
  distinct := h.distinct
  kept frameId hmem := by
    rw [hsame.expressions, hsame.calls]
    exact h.kept frameId hmem
  others frameId hmem := by
    rw [hsame.expressions, hsame.calls]
    exact h.others frameId hmem

/-! ### Steps -/

theorem pushFrameIfMissing_fresh {frame : ReplayStackFrame} (h : frame.frameId ∉ frameIds stack) :
    pushFrameIfMissing stack frame = stack ++ [frame] := by
  have hnone : stack.findIdx? (·.frameId == frame.frameId) = none := by
    rw [List.findIdx?_eq_none_iff]
    intro other hother
    exact beq_eq_false_iff_ne.mpr fun heq => h (List.mem_map.mpr ⟨other, hother, heq⟩)
  rw [pushFrameIfMissing, hnone]

theorem pushFrameIfMissing_top {frame : ReplayStackFrame} (hdistinct : (frameIds stack).Nodup)
    (htop : (frameIds stack).getLast? = some frame.frameId) : pushFrameIfMissing stack frame = stack := by
  rw [frameIds, List.getLast?_map, Option.map_eq_some_iff] at htop
  obtain ⟨top, hlast, hid⟩ := htop
  obtain ⟨below, rfl⟩ := List.getLast?_eq_some_iff.mp hlast
  have hbelow : below.findIdx? (·.frameId == frame.frameId) = none := by
    rw [List.findIdx?_eq_none_iff]
    intro other hother
    rw [frameIds, List.map_append] at hdistinct
    have hne := (List.nodup_append.mp hdistinct).2.2 _ (List.mem_map_of_mem hother) _ List.mem_cons_self
    exact beq_eq_false_iff_ne.mpr (hid ▸ hne)
  have hfound : (below ++ [top]).findIdx? (·.frameId == frame.frameId) = some below.length := by
    rw [List.findIdx?_append, hbelow]
    simp [hid]
  rw [pushFrameIfMissing, hfound]
  exact List.take_of_length_le (by simp)

variable (dependencies state) in
/-- What the step remembers of its effect does not bear on the stack. -/
theorem advanceStack_types (step : TraceStep) :
    ∃ types, advanceStack dependencies state step
      = finalizeStackForStep { prepareStackForStep dependencies state step with contractTypeById := types } step := by
  rw [advanceStack, rememberStateEffect]
  split <;> exact ⟨_, rfl⟩

variable (dependencies state) in
theorem advanceStack_effect {step : TraceStep} (hkind : step.kind = .stateEffect) :
    ∃ types, advanceStack dependencies state step
      = ⟨pushFrameIfMissing state.activeFrames (frameOf dependencies step), state.frameExpressionDepth,
        state.frameCallDepth, types⟩ := by
  obtain ⟨types, htypes⟩ := advanceStack_types dependencies state step
  rw [htypes, prepareStackForStep, finalizeStackForStep, hkind]
  exact ⟨types, rfl⟩

variable (dependencies state) in
theorem advanceStack_enterExpression {step : TraceStep} (hkind : step.kind = .enterExpression) :
    ∃ types, advanceStack dependencies state step
      = ⟨pushFrameIfMissing state.activeFrames (frameOf dependencies step),
        increaseDepth state.frameExpressionDepth step.frame.frameId, state.frameCallDepth, types⟩ := by
  obtain ⟨types, htypes⟩ := advanceStack_types dependencies state step
  rw [htypes, prepareStackForStep, finalizeStackForStep, hkind]
  exact ⟨types, rfl⟩

variable (dependencies state) in
theorem advanceStack_call {step : TraceStep} (hkind : step.kind = .call) :
    ∃ types, advanceStack dependencies state step
      = ⟨pushFrameIfMissing state.activeFrames (frameOf dependencies step), state.frameExpressionDepth,
        increaseDepth state.frameCallDepth step.frame.frameId, types⟩ := by
  obtain ⟨types, htypes⟩ := advanceStack_types dependencies state step
  rw [htypes, prepareStackForStep, finalizeStackForStep, hkind]
  exact ⟨types, rfl⟩

variable (dependencies state) in
theorem advanceStack_exitExpression {step : TraceStep} (hkind : step.kind = .exitExpression) :
    ∃ types, advanceStack dependencies state step
      = ⟨if (decreaseDepth state.frameExpressionDepth step.frame.frameId).get step.frame.frameId = none ∧
            depthOf state.frameCallDepth step.frame.frameId = 0 then
          popFrameIfTop (pushFrameIfMissing state.activeFrames (frameOf dependencies step)) step.frame.frameId
        else pushFrameIfMissing state.activeFrames (frameOf dependencies step),
        decreaseDepth state.frameExpressionDepth step.frame.frameId, state.frameCallDepth, types⟩ := by
  obtain ⟨types, htypes⟩ := advanceStack_types dependencies state step
  rw [htypes, prepareStackForStep, finalizeStackForStep, hkind]
  refine ⟨types, ?_⟩
  rw [depthOf, frameOf]
  dsimp only
  split <;> rfl

variable (dependencies state) in
theorem advanceStack_return {step : TraceStep} (hkind : step.kind = .return) :
    ∃ types, advanceStack dependencies state step
      = ⟨popFrameIfTop (pushFrameIfMissing state.activeFrames (frameOf dependencies step)) step.frame.frameId,
        state.frameExpressionDepth, decreaseDepth state.frameCallDepth step.frame.frameId, types⟩ := by
  obtain ⟨types, htypes⟩ := advanceStack_types dependencies state step
  rw [htypes, prepareStackForStep, finalizeStackForStep, hkind]
  exact ⟨types, rfl⟩

/-! ### Activities -/

theorem activeFrames_prepared (step : TraceStep) :
    (prepareStackForStep dependencies state step).activeFrames
      = pushFrameIfMissing state.activeFrames (frameOf dependencies step) :=
  activeFrames_prepareStackForStep dependencies state step

theorem isTop_append (frame : ReplayStackFrame) {step : TraceStep} (h : step.frame.frameId = frame.frameId) :
    IsTop (stack ++ [frame]) step := by
  rw [IsTop, frameIds, List.getLast?_map, List.getLast?_concat, h]
  rfl

theorem nodup_append_frame {frame : ReplayStackFrame} (hdistinct : (frameIds stack).Nodup)
    (hfresh : frame.frameId ∉ frameIds stack) : (frameIds (stack ++ [frame])).Nodup := by
  rw [frameIds, List.map_append]
  refine hdistinct.append (List.nodup_singleton _) fun frameId hmem hframe => ?_
  obtain rfl := List.mem_singleton.mp hframe
  exact hfresh hmem

theorem mem_frameIds_append {frame : ReplayStackFrame} {frameId : Nat} :
    frameId ∈ frameIds (stack ++ [frame]) ↔ frameId ∈ frameIds stack ∨ frameId = frame.frameId := by
  rw [frameIds, List.map_append, List.mem_append, frameIds, List.map_singleton, List.mem_singleton]

variable (dependencies) in
theorem HasStack.pushed (h : HasStack stack state) {step : TraceStep} (htop : IsTop stack step) :
    pushFrameIfMissing state.activeFrames (frameOf dependencies step) = stack := by
  rw [h.frames]
  exact pushFrameIfMissing_top h.distinct htop

/-- Entering an expression of the innermost frame, or the first one of a new frame. -/
theorem HasStack.enter (h : HasStack stack state) {enter : TraceStep} (hkind : enter.kind = .enterExpression)
    (hframe : IsTop stack enter ∨ enter.frame.frameId ∉ frameIds stack) :
    (prepareStackForStep dependencies state enter).activeFrames = openedBy dependencies stack enter ∧
      HasStack (openedBy dependencies stack enter) (advanceStack dependencies state enter) ∧
      (∀ other, depthOf (advanceStack dependencies state enter).frameExpressionDepth other
        = if other = enter.frame.frameId then depthOf state.frameExpressionDepth enter.frame.frameId + 1
          else depthOf state.frameExpressionDepth other) ∧
      (advanceStack dependencies state enter).frameCallDepth = state.frameCallDepth := by
  obtain ⟨types, hstate⟩ := advanceStack_enterExpression dependencies state hkind
  have hopened : pushFrameIfMissing state.activeFrames (frameOf dependencies enter) = openedBy dependencies stack enter := by
    rw [openedBy]
    split
    · next htop => exact h.pushed dependencies htop
    · next htop =>
        rw [h.frames]
        exact pushFrameIfMissing_fresh (hframe.resolve_left htop)
  have hdepth := depthOf_increaseDepth state.frameExpressionDepth enter.frame.frameId
  rw [activeFrames_prepared, hstate, hopened]
  refine ⟨rfl, ⟨rfl, ?_, fun frameId hmem => ?_, fun frameId hmem => ?_⟩, hdepth, rfl⟩
  · rw [openedBy]
    split
    · exact h.distinct
    · next htop => exact nodup_append_frame h.distinct (hframe.resolve_left htop)
  · rw [hdepth]
    split
    · omega
    · next hne =>
        refine h.kept frameId ?_
        rw [openedBy] at hmem
        split at hmem
        · exact hmem
        · exact (mem_frameIds_append.mp hmem).resolve_right hne
  · have hnot : frameId ∉ frameIds stack ∧ frameId ≠ enter.frame.frameId := by
      rw [openedBy] at hmem
      split at hmem
      · next htop =>
          refine ⟨hmem, fun heq => hmem ?_⟩
          rw [heq]
          exact List.mem_of_getLast? htop
      · exact not_or.mp (mem_frameIds_append.not.mp hmem)
    rw [hdepth, if_neg hnot.2]
    exact h.others frameId hnot.1

theorem popFrameIfTop_append (frame : ReplayStackFrame) : popFrameIfTop (stack ++ [frame]) frame.frameId = stack := by
  rw [popFrameIfTop, List.getLast?_concat]
  exact (if_pos rfl).trans List.dropLast_concat

/-- Leaving an expression, after which the state is as it was before the expression was entered. -/
theorem HasStack.exitExpression (h : HasStack stack state) {enter exit : TraceStep}
    (hframe : IsTop stack enter ∨ enter.frame.frameId ∉ frameIds stack) (hkind : exit.kind = .exitExpression)
    (hsame : exit.frame.frameId = enter.frame.frameId) {inner : ProjectionState}
    (hinner : HasStack (openedBy dependencies stack enter) inner)
    (hexpressions : ∀ other, depthOf inner.frameExpressionDepth other
      = if other = enter.frame.frameId then depthOf state.frameExpressionDepth enter.frame.frameId + 1
        else depthOf state.frameExpressionDepth other)
    (hcalls : ∀ other, depthOf inner.frameCallDepth other = depthOf state.frameCallDepth other) :
    (prepareStackForStep dependencies inner exit).activeFrames = openedBy dependencies stack enter ∧
      SameFrames state (advanceStack dependencies inner exit) := by
  have htop : IsTop (openedBy dependencies stack enter) exit := by
    rw [openedBy]
    split
    · next htop =>
        rw [IsTop, hsame]
        exact htop
    · exact isTop_append _ hsame
  have hpushed := hinner.pushed dependencies htop
  obtain ⟨hrestored, hgone⟩ := decreaseDepth_restores hexpressions
  obtain ⟨types, hstate⟩ := advanceStack_exitExpression dependencies inner hkind
  rw [activeFrames_prepared, hpushed]
  rw [hpushed, hsame] at hstate
  simp only [hgone, hcalls] at hstate
  rw [hstate]
  refine ⟨rfl, ?_, hrestored, hcalls⟩
  · -- A frame that was on the stack before is kept there by what had opened it.
    show (if _ then _ else _) = state.activeFrames
    rw [h.frames]
    rcases hframe with htop | hfresh
    · have hmem : enter.frame.frameId ∈ frameIds stack := List.mem_of_getLast? htop
      have hkept := h.kept _ hmem
      rw [openedBy, if_pos htop, if_neg (by omega)]
    · have hnottop : ¬ IsTop stack enter := fun htop => hfresh (List.mem_of_getLast? htop)
      rw [openedBy, if_neg hnottop, if_pos (h.others _ hfresh)]
      exact popFrameIfTop_append (frameOf dependencies enter)

/-- Calling a frame that is not open. -/
theorem HasStack.call (h : HasStack stack state) {enter : TraceStep} (hkind : enter.kind = .call)
    (hfresh : enter.frame.frameId ∉ frameIds stack) :
    (prepareStackForStep dependencies state enter).activeFrames = stack ++ [frameOf dependencies enter] ∧
      HasStack (stack ++ [frameOf dependencies enter]) (advanceStack dependencies state enter) ∧
      (advanceStack dependencies state enter).frameExpressionDepth = state.frameExpressionDepth ∧
      ∀ other, depthOf (advanceStack dependencies state enter).frameCallDepth other
        = if other = enter.frame.frameId then depthOf state.frameCallDepth enter.frame.frameId + 1
          else depthOf state.frameCallDepth other := by
  obtain ⟨types, hstate⟩ := advanceStack_call dependencies state hkind
  have hopened : pushFrameIfMissing state.activeFrames (frameOf dependencies enter) = stack ++ [frameOf dependencies enter] := by
    rw [h.frames]
    exact pushFrameIfMissing_fresh hfresh
  have hdepth := depthOf_increaseDepth state.frameCallDepth enter.frame.frameId
  rw [activeFrames_prepared, hstate, hopened]
  refine ⟨rfl, ⟨rfl, nodup_append_frame h.distinct hfresh, fun frameId hmem => ?_, fun frameId hmem => ?_⟩, rfl, hdepth⟩
  · rw [hdepth]
    split
    · omega
    · next hne => exact h.kept frameId ((mem_frameIds_append.mp hmem).resolve_right hne)
  · obtain ⟨hother, hne⟩ := not_or.mp (mem_frameIds_append.not.mp hmem)
    have hdifferent : frameId ≠ enter.frame.frameId := hne
    rw [hdepth, if_neg hdifferent]
    exact h.others frameId hother

/-- Returning from a call. -/
theorem HasStack.return (h : HasStack stack state) {enter exit : TraceStep} (hfresh : enter.frame.frameId ∉ frameIds stack)
    (hkind : exit.kind = .return) (hsame : exit.frame.frameId = enter.frame.frameId) {inner : ProjectionState}
    (hinner : HasStack (stack ++ [frameOf dependencies enter]) inner)
    (hexpressions : ∀ other, depthOf inner.frameExpressionDepth other = depthOf state.frameExpressionDepth other)
    (hcalls : ∀ other, depthOf inner.frameCallDepth other
      = if other = enter.frame.frameId then depthOf state.frameCallDepth enter.frame.frameId + 1
        else depthOf state.frameCallDepth other) :
    (prepareStackForStep dependencies inner exit).activeFrames = stack ++ [frameOf dependencies enter] ∧
      SameFrames state (advanceStack dependencies inner exit) := by
  have hpushed := hinner.pushed dependencies (isTop_append (frameOf dependencies enter) hsame)
  obtain ⟨hrestored, -⟩ := decreaseDepth_restores hcalls
  obtain ⟨types, hstate⟩ := advanceStack_return dependencies inner hkind
  rw [activeFrames_prepared, hpushed]
  rw [hpushed, hsame] at hstate
  rw [hstate]
  refine ⟨rfl, ?_, hexpressions, hrestored⟩
  show popFrameIfTop _ _ = state.activeFrames
  rw [h.frames]
  exact popFrameIfTop_append (frameOf dependencies enter)

/-- What an activity does: its steps have the frames that are open, and after it the frames are as they were before. -/
def Runs (dependencies : LoaderDependencies) (state : ProjectionState) (trace : List TraceStep)
    (chains : List (List ReplayStackFrame)) : Prop :=
  stacksFrom dependencies state trace = chains ∧ SameFrames state (advanceStacks dependencies state trace)

theorem Runs.append {first second : List TraceStep} {chains others : List (List ReplayStackFrame)}
    (h : Runs dependencies state first chains)
    (h' : Runs dependencies (advanceStacks dependencies state first) second others) :
    Runs dependencies state (first ++ second) (chains ++ others) := by
  refine ⟨?_, ?_⟩
  · rw [stacksFrom_append, h.1, h'.1]
  · rw [advanceStacks_append]
    exact h.2.trans h'.2

/-- What stands between two steps, by the two steps. -/
theorem Runs.between {enter exit : TraceStep} {inside : List TraceStep} {opened : List ReplayStackFrame}
    {chains : List (List ReplayStackFrame)}
    (hopened : (prepareStackForStep dependencies state enter).activeFrames = opened)
    (hinside : Runs dependencies (advanceStack dependencies state enter) inside chains)
    (hleft : (prepareStackForStep dependencies
        (advanceStacks dependencies (advanceStack dependencies state enter) inside) exit).activeFrames = opened ∧
      SameFrames state (advanceStack dependencies
        (advanceStacks dependencies (advanceStack dependencies state enter) inside) exit)) :
    Runs dependencies state (enter :: (inside ++ [exit])) (opened :: (chains ++ [opened])) := by
  refine ⟨?_, ?_⟩
  · rw [stacksFrom, stacksFrom_append, hinside.1, hopened, stacksFrom, stacksFrom, hleft.1]
  · rw [advanceStacks, advanceStacks_append]
    exact hleft.2

mutual

theorem activity_runs : ∀ (activity : Activity) {stack : List ReplayStackFrame} {state : ProjectionState},
    HasStack stack state → activity.TakesPlace dependencies stack →
      Runs dependencies state activity.trace (activity.openFrames dependencies stack)
  | .effect step, stack, state, hstate, h => by
      obtain ⟨types, heq⟩ := advanceStack_effect dependencies state h.1
      have hpushed := hstate.pushed dependencies h.2
      refine ⟨?_, ?_⟩
      · rw [Activity.trace, stacksFrom, stacksFrom, activeFrames_prepared, hpushed, Activity.openFrames]
      · rw [Activity.trace, advanceStacks, advanceStacks, heq, hpushed]
        exact ⟨hstate.frames.symm, fun _ => rfl, fun _ => rfl⟩
  | .expression enter inside exit, stack, state, hstate, h => by
      obtain ⟨henter, hexit, hsame, hframe, hinside⟩ := h
      obtain ⟨hopened, hwithin, hexpressions, hcalls⟩ := hstate.enter henter hframe
      have hruns := activities_run inside hwithin hinside
      refine Runs.between hopened hruns (hstate.exitExpression hframe hexit hsame (hwithin.of_sameFrames hruns.2) ?_ ?_)
      · exact fun other => (hruns.2.expressions other).trans (hexpressions other)
      · exact fun other => (hruns.2.calls other).trans (congrArg (depthOf · other) hcalls)
  | .call enter inside exit, stack, state, hstate, h => by
      obtain ⟨henter, hexit, hsame, hfresh, hinside⟩ := h
      obtain ⟨hopened, hwithin, hexpressions, hcalls⟩ := hstate.call henter hfresh
      have hruns := activities_run inside hwithin hinside
      refine Runs.between hopened hruns (hstate.return hfresh hexit hsame (hwithin.of_sameFrames hruns.2) ?_ ?_)
      · exact fun other => (hruns.2.expressions other).trans (congrArg (depthOf · other) hexpressions)
      · exact fun other => (hruns.2.calls other).trans (hcalls other)

theorem activities_run : ∀ (activities : List Activity) {stack : List ReplayStackFrame} {state : ProjectionState},
    HasStack stack state → TakePlace dependencies stack activities →
      Runs dependencies state (tracesOf activities) (openFramesOf dependencies stack activities)
  | [], _, state, _, _ => ⟨rfl, SameFrames.refl state⟩
  | activity :: rest, _, _, hstate, h =>
      have hfirst := activity_runs activity hstate h.1
      hfirst.append (activities_run rest (hstate.of_sameFrames hfirst.2) h.2)

end

/-! ### Whole replays -/

/-- What a replay evaluates: the effect of its entrypoint, if the entrypoint has one, and an expression of the same frame. -/
structure CallTree where
  effect : Option TraceStep
  enter : TraceStep
  inside : List Activity
  exit : TraceStep

namespace CallTree

def trace (tree : CallTree) : List TraceStep := tree.effect.toList ++ tree.enter :: (tracesOf tree.inside ++ [tree.exit])

variable (dependencies) in
/-- The frame of the entrypoint, by the name of its first step. -/
def root (tree : CallTree) : ReplayStackFrame := frameOf dependencies (tree.effect.getD tree.enter)

variable (dependencies) in
def openFrames (tree : CallTree) : List (List ReplayStackFrame) :=
  tree.effect.toList.map (fun _ => [tree.root dependencies])
    ++ [tree.root dependencies] :: (openFramesOf dependencies [tree.root dependencies] tree.inside ++ [[tree.root dependencies]])

variable (dependencies) in
structure WellFormed (tree : CallTree) : Prop where
  effect : ∀ step ∈ tree.effect, step.kind = .stateEffect ∧ step.frame.frameId = tree.enter.frame.frameId
  enter : tree.enter.kind = .enterExpression
  exit : tree.exit.kind = .exitExpression ∧ tree.exit.frame.frameId = tree.enter.frame.frameId
  inside : TakePlace dependencies [tree.root dependencies] tree.inside

end CallTree

/-- The expression of the entrypoint, where nothing has been entered yet. -/
theorem stacksFrom_expression {enter exit : TraceStep} {inside : List Activity} {root : ReplayStackFrame}
    (hroot : root.frameId = enter.frame.frameId) (henter : enter.kind = .enterExpression)
    (hexit : exit.frame.frameId = enter.frame.frameId) (hinside : TakePlace dependencies [root] inside)
    (hpushed : pushFrameIfMissing state.activeFrames (frameOf dependencies enter) = [root])
    (hexpressions : ∀ frameId, depthOf state.frameExpressionDepth frameId = 0)
    (hcalls : ∀ frameId, depthOf state.frameCallDepth frameId = 0) :
    stacksFrom dependencies state (enter :: (tracesOf inside ++ [exit]))
      = [root] :: (openFramesOf dependencies [root] inside ++ [[root]]) := by
  obtain ⟨types, hstate⟩ := advanceStack_enterExpression dependencies state henter
  have hdepth := depthOf_increaseDepth state.frameExpressionDepth enter.frame.frameId
  have hwithin : HasStack [root] (advanceStack dependencies state enter) := by
    rw [hstate, hpushed]
    refine ⟨rfl, List.nodup_singleton _, fun frameId hmem => ?_, fun frameId hmem => ⟨?_, hcalls frameId⟩⟩
    · obtain rfl := List.mem_singleton.mp hmem
      rw [hdepth, if_pos hroot]
      omega
    · have hne : frameId ≠ enter.frame.frameId := fun heq => hmem (List.mem_singleton.mpr (heq.trans hroot.symm))
      rw [hdepth, if_neg hne]
      exact hexpressions frameId
  have hruns := activities_run inside hwithin hinside
  have hleft := (hwithin.of_sameFrames hruns.2).pushed dependencies
    (isTop_append root (hexit.trans hroot.symm) : IsTop ([] ++ [root]) exit)
  rw [stacksFrom, stacksFrom_append, hruns.1, stacksFrom, stacksFrom, activeFrames_prepared, hpushed, activeFrames_prepared]
  exact congrArg _ (congrArg _ (congrArg (fun stack => [stack]) hleft))

/-- The stacks of a replay are the chains of its open frames: the frame of each call and each expression stands on the stack of
the steps told between its entering and its leaving, in the order of entering, and nothing else does. -/
theorem stacks_of_callTree (contracts : KeyedMap String HydratedContract) {tree : CallTree} (h : tree.WellFormed dependencies) :
    (projectRawReplaySteps dependencies contracts tree.trace).map (·.step.stackFrames) = tree.openFrames dependencies := by
  rw [stacks_projectRawReplaySteps]
  obtain ⟨effect, enter, inside, exit⟩ := tree
  obtain ⟨heffect, henter, ⟨-, hexit⟩, hinside⟩ := h
  cases effect with
  | none => exact stacksFrom_expression rfl henter hexit hinside rfl (fun _ => rfl) fun _ => rfl
  | some step =>
      obtain ⟨hkind, hframe⟩ := heffect step rfl
      obtain ⟨types, hstate⟩ :=
        advanceStack_effect dependencies (.initial contracts) hkind
      have hpushed : pushFrameIfMissing [frameOf dependencies step] (frameOf dependencies enter) = [frameOf dependencies step] :=
        pushFrameIfMissing_top (List.nodup_singleton _) (congrArg some hframe)
      have hfirst : (prepareStackForStep dependencies (.initial contracts) step).activeFrames = [frameOf dependencies step] :=
        activeFrames_prepared step
      show (prepareStackForStep dependencies (.initial contracts) step).activeFrames
        :: stacksFrom dependencies (advanceStack dependencies (.initial contracts) step) _ = [frameOf dependencies step] :: _
      rw [hfirst, hstate]
      exact congrArg _ (stacksFrom_expression hframe henter hexit hinside hpushed (fun _ => rfl) fun _ => rfl)

end Tree

/-- A step of the frame `main`, or of a frame that it calls. -/
def toldStep (kind : StepKind) (frameId : Nat) : TraceStep :=
  ⟨kind, .unsupported none, ⟨frameId, "main", "Main", ⟨"main", .unsupported none⟩, ⟨0, []⟩⟩, [], none, none, []⟩

/-- An expression with a call inside of it. -/
def callingTree : CallTree where
  effect := none
  enter := toldStep .enterExpression 0
  inside := [.call (toldStep .call 1) [.expression (toldStep .enterExpression 1) [] (toldStep .exitExpression 1)] (toldStep .return 1)]
  exit := toldStep .exitExpression 0

theorem stacks_of_callTree_calling :
    ((projectRawReplaySteps ⟨none, fun _ => ""⟩ .empty callingTree.trace).map (·.step.stackFrames)).map frameIds
      = [[0], [0, 1], [0, 1], [0, 1], [0, 1], [0]] := by
  have hwellFormed : callingTree.WellFormed ⟨none, fun _ => ""⟩ := by
    refine ⟨fun _ hstep => absurd hstep nofun, rfl, ⟨rfl, rfl⟩, ⟨rfl, rfl, rfl, by decide, ?_⟩, trivial⟩
    exact ⟨⟨rfl, rfl, rfl, Or.inl (by decide), trivial⟩, trivial⟩
  rw [stacks_of_callTree .empty hwellFormed]
  rfl

end CantonSdk.Debugger
