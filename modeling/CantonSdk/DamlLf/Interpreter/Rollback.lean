import CantonSdk.DamlLf.Interpreter.Preservation

/-!
# Actions before a caught exception

The state in which a catch expression starts has the effects, the created contracts and the counters that the body
left behind: nothing is taken back. They are those with which the body started exactly when it executed no action
before it threw.
-/

set_option linter.all false

namespace CantonSdk.DamlLf.Interpreter

open CantonSdk.Base

/-- What a replay has done: its effects, the contracts it created, and the counters that contract ids are taken from. -/
structure ReplayLedger where
  effects : List ReplayEffect
  createdContracts : KeyedMap String KnownContract
  nextSyntheticContractIdNumber : Nat
  nextObservedCreateIndex : Nat

def ReplayContext.ledger (context : ReplayContext) : ReplayLedger :=
  ⟨context.effects, context.createdContracts, context.nextSyntheticContractIdNumber, context.nextObservedCreateIndex⟩

def EvaluatorState.ledger (state : EvaluatorState) : Option ReplayLedger := state.activeReplayContext.map (·.ledger)

/-- The steps that were told after the start. -/
def stepsSince (start state : EvaluatorState) : List TraceStep := state.steps.drop start.steps.length

/-- No create, no fetch and no exercise was executed after the start. -/
def ExecutesNoAction (start state : EvaluatorState) : Prop := ∀ step ∈ stepsSince start state, step.kind ≠ .stateEffect

/-- The effects among steps. -/
def effectsOf (steps : List TraceStep) : List ReplayEffect := steps.filterMap (·.stateEffect)

/-- The replay has gone on from one context to the other by the given effects: it has not moved without one. -/
def GoesOn (effects : List ReplayEffect) : Option ReplayContext → Option ReplayContext → Prop
  | none, none => True
  | some context, some later => later.effects = context.effects ++ effects ∧ (effects = [] → later = context)
  | _, _ => False

/-- What an evaluation has added to the state it started in. -/
structure GoesOnFrom (start state : EvaluatorState) : Prop where
  steps : ∃ told, state.steps = start.steps ++ told ∧
    (∀ step ∈ told, step.kind = .stateEffect ↔ step.stateEffect.isSome) ∧
    GoesOn (effectsOf told) start.activeReplayContext state.activeReplayContext

theorem goesOn_refl (context : Option ReplayContext) : GoesOn [] context context := by
  cases context with
  | none => trivial
  | some context => exact ⟨(List.append_nil _).symm, fun _ => rfl⟩

/-- Another effect on a context that differs from the last one by anything but its effects. -/
theorem GoesOn.addEffect {effects : List ReplayEffect} {first later : Option ReplayContext} (h : GoesOn effects first later)
    (effect : ReplayEffect) (move : ReplayContext → ReplayContext) (hmove : ∀ context, (move context).effects = context.effects) :
    GoesOn (effects ++ [effect]) first (later.map fun context => (move context).addEffect effect) := by
  cases first with
  | none =>
      cases later with
      | none => trivial
      | some later => exact h.elim
  | some first =>
      cases later with
      | none => exact h.elim
      | some later =>
          refine ⟨?_, fun hnil => absurd hnil (by simp)⟩
          show (move later).effects ++ [effect] = first.effects ++ (effects ++ [effect])
          rw [hmove, h.1, List.append_assoc]

/-- An effect is told by a step, which names it. -/
theorem GoesOnFrom.effect {start state : EvaluatorState} (h : GoesOnFrom start state) (effect : ReplayEffect)
    (expression : Expression) (frame : RuntimeFrame) (openFrames : List Nat) (move : ReplayContext → ReplayContext)
    (hmove : ∀ context, (move context).effects = context.effects) :
    GoesOnFrom start ((state.withContext (state.activeReplayContext.map move)).afterEffect effect expression frame
      openFrames) := by
  obtain ⟨told, hsteps, hkinds, hgoes⟩ := h.steps
  refine ⟨told ++ [⟨.stateEffect, expression, frame, frame.scope.snapshotBindings state.scopes, none, some effect,
    openFrames⟩], ?_, ?_, ?_⟩
  · rw [← List.append_assoc, ← hsteps]
    rfl
  · intro step hstep
    rcases List.mem_append.mp hstep with hold | hnew
    · exact hkinds step hold
    · rw [List.mem_singleton.mp hnew]
      simp
  · have hadded := hgoes.addEffect effect move hmove
    rw [effectsOf, List.filterMap_append]
    rw [effectsOf] at hadded
    show GoesOn _ _ ((state.activeReplayContext.map move).map (·.addEffect effect))
    rw [Option.map_map]
    exact hadded

theorem goesOnFrom_refl (state : EvaluatorState) : GoesOnFrom state state :=
  ⟨[], (List.append_nil _).symm, fun _ h => absurd h List.not_mem_nil, goesOn_refl _⟩

theorem preserved_goesOnFrom (start : EvaluatorState) : PreservedBySteps (GoesOnFrom start) fun _ => True where
  addScope := fun _ h => ⟨trivial, ⟨h.steps⟩⟩
  setBinding := fun _ _ _ _ _ h => ⟨h.steps⟩
  countFrame := fun _ h => ⟨h.steps⟩
  addStep := by
    intro state step hkind hnone h
    obtain ⟨told, hsteps, hkinds, hgoes⟩ := h.steps
    refine ⟨told ++ [step], ?_, ?_, ?_⟩
    · rw [← List.append_assoc, ← hsteps]
      rfl
    · intro other hother
      rcases List.mem_append.mp hother with hold | hnew
      · exact hkinds other hold
      · rw [List.mem_singleton.mp hnew, hnone]
        simp [hkind]
    · have heffects : effectsOf (told ++ [step]) = effectsOf told := by
        simp [effectsOf, hnone]
      rw [heffects]
      exact hgoes
  effect := by
    intro state effect expression frame openFrames h
    have heffect := h.effect effect expression frame openFrames id fun _ => rfl
    rwa [Option.map_id] at heffect
  create := by
    intro state templateId payload effect expression frame openFrames h
    have htaken : (takeContractId state.activeReplayContext).2.map (fun context =>
          { context with
            createdContracts := context.createdContracts.set (takeContractId state.activeReplayContext).1 ⟨payload, templateId⟩ })
        = state.activeReplayContext.map fun context =>
            { context with
              nextSyntheticContractIdNumber := (state.activeReplayContext.map (·.nextSyntheticContractIdNumber)).getD 1 + 1
              nextObservedCreateIndex := context.nextObservedCreateIndex + 1
              createdContracts :=
                context.createdContracts.set (takeContractId state.activeReplayContext).1 ⟨payload, templateId⟩ } := by
      rw [takeContractId, Option.map_map]
      rfl
    rw [EvaluatorState.afterCreate, htaken]
    exact h.effect effect expression frame openFrames _ fun _ => rfl

theorem effectsOf_eq_nil_iff {steps : List TraceStep} (hkinds : ∀ step ∈ steps, step.kind = .stateEffect ↔ step.stateEffect.isSome) :
    effectsOf steps = [] ↔ ∀ step ∈ steps, step.kind ≠ .stateEffect := by
  rw [effectsOf, List.filterMap_eq_nil_iff]
  constructor
  · intro h step hstep hkind
    have hsome := (hkinds step hstep).mp hkind
    rw [h step hstep] at hsome
    cases hsome
  · intro h step hstep
    exact Option.not_isSome_iff_eq_none.mp fun hsome => h step hstep ((hkinds step hstep).mpr hsome)

/-- The ledger of a replay is where it was exactly when no action was executed since. -/
theorem GoesOnFrom.ledger_eq_iff {start state : EvaluatorState} (h : GoesOnFrom start state) :
    state.ledger = start.ledger ↔ start.activeReplayContext = none ∨ ExecutesNoAction start state := by
  obtain ⟨told, hsteps, hkinds, hgoes⟩ := h.steps
  have hsince : stepsSince start state = told := by
    rw [stepsSince, hsteps, List.drop_left]
  rw [ExecutesNoAction, hsince, ← effectsOf_eq_nil_iff hkinds, EvaluatorState.ledger, EvaluatorState.ledger]
  generalize start.activeReplayContext = first at hgoes ⊢
  generalize state.activeReplayContext = later at hgoes ⊢
  cases first with
  | none =>
      cases later with
      | none => simp
      | some later => exact hgoes.elim
  | some first =>
      cases later with
      | none => exact hgoes.elim
      | some later =>
          constructor
          · intro hledger
            have heffects := congrArg ReplayLedger.effects (Option.some.inj hledger)
            exact .inr (List.append_right_eq_self.mp (hgoes.1.symm.trans heffects))
          · rintro (hnone | hnil)
            · cases hnone
            · rw [hgoes.2 hnil]

section TryCatch

variable {compilation : EvaluatorCompilation} {builtinDispatch : BuiltinDispatch} {fuel : Nat} {body : Expression}
  {frame : RuntimeFrame} {openFrames : List Nat} {start thrown : EvaluatorState} {value : Value}

/-- When the body of a `tryCatch` throws, the catch expression is evaluated from a state whose ledger is that of the
start of the body exactly when the body executed no action before it threw, or nothing is replayed. -/
theorem rolls_back_iff (catchVariableName : Option String) (catchExpression : Expression)
    (hthrown : (evaluator compilation builtinDispatch fuel).evaluateExpression body frame openFrames start
      = (.error (.thrown value), thrown)) :
    ∃ scopedFrame caught,
      evaluateUpdateExpression compilation (evaluator compilation builtinDispatch fuel)
          (.tryCatch body catchVariableName catchExpression) frame openFrames start
        = (evaluator compilation builtinDispatch fuel).evaluateExpression catchExpression scopedFrame openFrames caught ∧
      (caught.ledger = start.ledger ↔ start.activeReplayContext = none ∨ ExecutesNoAction start thrown) := by
  have hsteps := preserved_goesOnFrom start
  have hfrom := (evaluator_keeps hsteps compilation builtinDispatch fuel).1 body frame openFrames start
    (goesOnFrom_refl start)
  rw [hthrown] at hfrom
  have hcaught := keeps_deriveScopedFrame hsteps frame (binding catchVariableName value) openFrames thrown hfrom
  rw [run_deriveScopedFrame] at hcaught
  have hsame : ∀ bindings : List (String × Value), ∀ state : EvaluatorState,
      (state.setBindings thrown.nextScope bindings).steps = state.steps := by
    intro bindings
    induction bindings with
    | nil => exact fun _ => rfl
    | cons first rest ih => exact fun state => ih _
  refine ⟨frame.derive ⟨thrown.nextScope, frame.scope.chain⟩,
    thrown.addScope.setBindings thrown.nextScope (binding catchVariableName value), ?_, ?_⟩
  · rw [evaluateUpdateExpression, run_tryCatch, hthrown, orElse_error, evaluateCatch, run_bind, run_deriveScopedFrame,
      andThen_ok]
  · rw [hcaught.ledger_eq_iff, ExecutesNoAction, ExecutesNoAction, stepsSince, stepsSince, hsame]
    rfl

end TryCatch

/-- A body that creates a contract and then throws: the create is still there when the exception is caught. -/
def createThenThrow : Expression :=
  .updateExpression (.block [("contract", .updateExpression (.create none (.builtinConstructor .unit)))]
    (.throwExpression (.builtinConstructor .unit)))

theorem create_outlives_exception :
    ∃ thrown scopedFrame caught,
      (evaluator emptyCompilation (builtinDispatchOf fun _ => "") 9).evaluateExpression createThenThrow
          RuntimeFrame.initial [] (EvaluatorState.initial (some (ReplayContext.initial emptyEnvironment)))
        = (.error (.thrown .unit), thrown) ∧
      evaluateUpdateExpression emptyCompilation (evaluator emptyCompilation (builtinDispatchOf fun _ => "") 9)
          (.tryCatch createThenThrow none (.builtinConstructor .unit)) RuntimeFrame.initial []
          (EvaluatorState.initial (some (ReplayContext.initial emptyEnvironment)))
        = (evaluator emptyCompilation (builtinDispatchOf fun _ => "") 9).evaluateExpression (.builtinConstructor .unit)
          scopedFrame [] caught ∧
      caught.ledger ≠ (EvaluatorState.initial (some (ReplayContext.initial emptyEnvironment))).ledger := by
  refine ⟨_, RuntimeFrame.initial.derive ⟨2, [0]⟩, _, rfl, rfl, ?_⟩
  intro hledger
  have hnumber := congrArg (Option.map ReplayLedger.nextSyntheticContractIdNumber) hledger
  exact absurd hnumber (by decide)

theorem throw_rolls_back :
    ∃ scopedFrame caught,
      evaluateUpdateExpression emptyCompilation (evaluator emptyCompilation (builtinDispatchOf fun _ => "") 9)
          (.tryCatch (.throwExpression (.textLiteral "stop")) (some "error") (.variableName "error")) RuntimeFrame.initial []
          (EvaluatorState.initial (some (ReplayContext.initial emptyEnvironment)))
        = (evaluator emptyCompilation (builtinDispatchOf fun _ => "") 9).evaluateExpression (.variableName "error")
          scopedFrame [] caught ∧
      caught.ledger = (EvaluatorState.initial (some (ReplayContext.initial emptyEnvironment))).ledger := by
  obtain ⟨scopedFrame, caught, hrun, hledger⟩ :=
    @rolls_back_iff emptyCompilation (builtinDispatchOf fun _ => "") 9 (.throwExpression (.textLiteral "stop"))
      RuntimeFrame.initial [] (EvaluatorState.initial (some (ReplayContext.initial emptyEnvironment))) _ _ (some "error")
      (.variableName "error") rfl
  refine ⟨scopedFrame, caught, hrun, hledger.mpr (.inr ?_)⟩
  intro step hstep hkind
  have hkinds := List.mem_map_of_mem (f := TraceStep.kind) hstep
  rw [hkind] at hkinds
  exact absurd hkinds (by decide +kernel)

end CantonSdk.DamlLf.Interpreter
