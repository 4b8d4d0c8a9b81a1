import CantonSdk.DamlLf.Interpreter.Elimination
import CantonSdk.DamlLf.Interpreter.Evaluator

/-!
# Introduction and elimination

An expression that makes a record, a variant, an optional or a list evaluates its components and puts them together. A
projection should give the component back, and a case expression should take the branch for what was made and bind its
names to the components. The evaluator does so exactly when what it puts together keeps the components.
-/

set_option linter.all false

namespace CantonSdk.DamlLf.Interpreter

open CantonSdk.Base

/-! ## What is made -/

/-- An expression that makes a value from the values of others. -/
inductive Introduction
  | record (fields : List (String × Expression))
  | variant (constructorName : String) (argument : Expression)
  | none
  | some (value : Expression)
  | nil
  | cons (head : Expression) (front : List Expression) (tail : Option Expression)

def Introduction.expression : Introduction → Expression
  | .record fields => .recordConstruction fields
  | .variant constructorName argument => .variantConstruction constructorName argument
  | .none => .optionalConstruction Option.none
  | .some value => .optionalConstruction (Option.some value)
  | .nil => .listConstruction [] Option.none
  | .cons head front tail => .listConstruction (head :: front) tail

/-- What is put in. -/
inductive Construction
  | record (fields : List (String × Value))
  | variant (constructorName : String) (value : Value)
  | none
  | some (value : Value)
  | nil
  | cons (head : Value) (front : List Value) (tail : Value)

def emptyList : Value := .ledgerValue (.array []) none

def evaluateListTail (self : Evaluator) (frame : RuntimeFrame) : Option Expression → Evaluation Value
  | none => return emptyList
  | some expression => self.evaluateExpression expression frame

/-- The components, in the order in which the evaluator comes to them. -/
def evaluateComponents (self : Evaluator) (frame : RuntimeFrame) : Introduction → Evaluation Construction
  | .record fields => do
      let values ← evaluateFields self frame fields
      return .record (assigned values)
  | .variant constructorName argument => do
      let value ← self.evaluateExpression argument frame
      return .variant constructorName value
  | .none => return .none
  | .some expression => do
      let value ← self.evaluateExpression expression frame
      return .some value
  | .nil => return .nil
  | .cons head front tail => do
      let value ← self.evaluateExpression head frame
      let values ← evaluateAll self frame front
      let tailValue ← evaluateListTail self frame tail
      return .cons value values tailValue

/-- What the evaluator puts together. -/
def construct : Construction → Except HostError Value
  | .record fields => .ok (createRecordRuntimeValue fields)
  | .variant constructorName value =>
      .ok (hydrateRuntimeValue (.object [("constructor", .string constructorName), ("value", unwrapRuntimeValue value)]) none)
  | .none => .ok .unit
  | .some value => .ok value
  | .nil => .ok emptyList
  | .cons head front tail => constructList (unwrapRuntimeValue head :: front.map unwrapRuntimeValue) (unwrapRuntimeValue tail)

/-! ## What comes out -/

/-- The list of these elements in front of a list. -/
def listOf (front : List Value) (tail : Value) : Value :=
  match front, unwrapRuntimeValue tail with
  | [], _ => tail
  | front, .array items => hydrateRuntimeValue (.array (front.map unwrapRuntimeValue ++ items)) none
  | _, _ => tail

/-- Whether a pattern is for what was made, and what it binds there: a pattern without components makes no scope. -/
def Construction.matched (construction : Construction) (pattern : CasePattern) : Option (Option (List (String × Value))) :=
  match pattern.patternKind, construction with
  | .default, _ => Option.some Option.none
  | .variant, .variant constructorName value =>
      if pattern.constructorName = Option.some constructorName then
        Option.some (Option.some (binding pattern.binderName value))
      else Option.none
  | .optionalNone, .none => Option.some Option.none
  | .optionalSome, .some value => Option.some (Option.some (binding pattern.binderName value))
  | .nil, .nil => Option.some Option.none
  | .cons, .cons head front tail =>
      Option.some (Option.some (binding pattern.headBinderName head ++ binding pattern.tailBinderName (listOf front tail)))
  | _, _ => Option.none

/-- The patterns of a case expression on what was made. -/
def Construction.fits : Construction → PatternKind → Bool
  | .variant _ _, kind => kind = .default || kind = .variant
  | .none, kind => kind = .default || kind = .optionalNone || kind = .optionalSome
  | .some _, kind => kind = .default || kind = .optionalNone || kind = .optionalSome
  | .nil, kind => kind = .default || kind = .nil || kind = .cons
  | .cons _ _ _, kind => kind = .default || kind = .nil || kind = .cons
  | .record _, _ => false

/-- The first alternative for what was made. -/
def Construction.choose (construction : Construction) (alternatives : List (CasePattern × Expression)) :
    Option (Option (List (String × Value)) × Expression) :=
  alternatives.findSome? fun alternative => (construction.matched alternative.1).map fun bindings => (bindings, alternative.2)

/-- Evaluates the branch that was chosen, in a scope of its own if the pattern has components. -/
def takeBranch (self : Evaluator) (frame : RuntimeFrame) (failure : HostError) :
    Option (Option (List (String × Value)) × Expression) → Evaluation Value
  | none => liftHost (.error failure)
  | some (none, body) => self.evaluateExpression body frame
  | some (some bindings, body) => do
      let scopedFrame ← deriveScopedFrame frame bindings
      self.evaluateExpression body scopedFrame

/-- The step that is told when an expression has been evaluated. -/
def finishExpression (expression : Expression) (frame : RuntimeFrame) (openFrames : List Nat)
    (result : Except Failure Value × EvaluatorState) : Except Failure Value × EvaluatorState :=
  andThen result fun value state =>
    (.ok value, state.addStep ⟨.exitExpression, expression, frame, frame.scope.snapshotBindings state.scopes, some value,
      none, openFrames⟩)

section Cancels

variable (compilation : EvaluatorCompilation) (builtinDispatch : BuiltinDispatch) (fuel : Nat) (frame : RuntimeFrame)
  (openFrames : List Nat) (state : EvaluatorState)

/-- The components evaluate to these values, whatever steps have been told and calls are open. -/
def Puts (introduction : Introduction) (construction : Construction) : Prop :=
  ∀ calls steps, ∃ state', evaluateComponents (evaluator compilation builtinDispatch fuel) frame introduction calls
    { state with steps := steps } = (.ok construction, state')

/-- The projections from what was made, or the case expressions on it, give back what was put in. -/
def Cancels (introduction : Introduction) : Construction → Prop
  | .record fields => ∀ name value, fields.lookup name = some value → ∃ state',
      (evaluator compilation builtinDispatch (fuel + 2)).evaluateExpression
        (.recordProjection name introduction.expression) frame openFrames state = (.ok value, state')
  | construction => ∀ alternatives, (∀ alternative ∈ alternatives, construction.fits alternative.1.patternKind = true) →
      ∃ failure state', (evaluator compilation builtinDispatch (fuel + 2)).evaluateExpression
          (.caseExpression introduction.expression alternatives) frame openFrames state
        = finishExpression (.caseExpression introduction.expression alternatives) frame (openFrames ++ [frame.frameId])
          (takeBranch (evaluator compilation builtinDispatch (fuel + 1)) frame failure (construction.choose alternatives)
            (openFrames ++ [frame.frameId]) state')

/-- What is put together keeps what is put in. -/
def Construction.Keeps : Construction → Prop
  | .record fields => RecordKeeps compilation.getRecordFields fields
  | .variant _ value => IsKept value
  | .none => True
  | .some value => value.isUnit = false ∧ IsKept value
  | .nil => True
  | .cons head front tail =>
      (∃ items, unwrapRuntimeValue tail = .array items) ∧ IsKept head ∧ (front = [] → IsKept tail)

end Cancels

/-! ## Evaluation, step by step -/

section Runs

variable {compilation : EvaluatorCompilation} {builtinDispatch : BuiltinDispatch} {self : Evaluator} {fuel : Nat}
  {frame : RuntimeFrame} {openFrames : List Nat} {state : EvaluatorState}

/-- The state once it has been told that an expression is entered. -/
def EvaluatorState.entered (state : EvaluatorState) (expression : Expression) (frame : RuntimeFrame) (openFrames : List Nat) :
    EvaluatorState :=
  state.addStep ⟨.enterExpression, expression, frame, frame.scope.snapshotBindings state.scopes, none, none, openFrames⟩

theorem run_evaluateExpression (expression : Expression) :
    (evaluator compilation builtinDispatch (fuel + 1)).evaluateExpression expression frame openFrames state
      = finishExpression expression frame (openFrames ++ [frame.frameId])
          (resolveExpressionValue compilation (evaluator compilation builtinDispatch fuel) expression frame
            (openFrames ++ [frame.frameId]) (state.entered expression frame (openFrames ++ [frame.frameId]))) := by
  show evaluateExpressionOrThrow compilation _ expression frame openFrames state = _
  rw [evaluateExpressionOrThrow, run_withReader, run_bind, run_onStep, andThen_ok, run_bind]
  rfl

/-- An introduction evaluates its components and puts them together. -/
theorem resolve_introduction (introduction : Introduction) :
    resolveExpressionValue compilation self introduction.expression frame
      = evaluateComponents self frame introduction >>= fun construction => liftHost (construct construction) := by
  cases introduction with
  | record fields => simp [resolveExpressionValue, Introduction.expression, evaluateComponents, construct, liftHost]
  | variant constructorName argument =>
      simp [resolveExpressionValue, Introduction.expression, evaluateComponents, construct, liftHost]
  | none => simp [resolveExpressionValue, Introduction.expression, evaluateComponents, construct, liftHost]
  | some value => simp [resolveExpressionValue, Introduction.expression, evaluateComponents, construct, liftHost]
  | nil =>
      simp [resolveExpressionValue, Introduction.expression, evaluateComponents, construct, liftHost, evaluateList,
        evaluateAll, evaluateTail, constructList, emptyList, hydrate_array, readEmbeddedContractIdArray]
  | cons head front tail =>
      cases tail with
      | none =>
          simp [resolveExpressionValue, Introduction.expression, evaluateComponents, construct, evaluateList,
            evaluateAll, evaluateTail, evaluateListTail, emptyList, unwrapRuntimeValue]
      | some tail =>
          simp [resolveExpressionValue, Introduction.expression, evaluateComponents, construct, evaluateList,
            evaluateAll, evaluateTail, evaluateListTail]

/-- What is made of components that evaluate. -/
theorem run_introduction {introduction : Introduction} {construction : Construction}
    (hputs : Puts compilation builtinDispatch fuel frame state introduction construction) (calls : List Nat)
    (steps : List TraceStep) :
    ∃ state', (evaluator compilation builtinDispatch (fuel + 1)).evaluateExpression introduction.expression frame calls
        { state with steps := steps }
      = finishExpression introduction.expression frame (calls ++ [frame.frameId])
          (liftHost (construct construction) (calls ++ [frame.frameId]) state') := by
  obtain ⟨state', hcomponents⟩ := hputs (calls ++ [frame.frameId])
    (({ state with steps := steps } : EvaluatorState).entered introduction.expression frame (calls ++ [frame.frameId])).steps
  refine ⟨state', ?_⟩
  rw [run_evaluateExpression, resolve_introduction, run_bind]
  refine congrArg (finishExpression _ _ _) ?_
  exact (congrArg (andThen · _) hcomponents).trans (andThen_ok ..)

/-- What is done with the value of an introduction. -/
theorem run_eliminated {introduction : Introduction} {construction : Construction}
    (hputs : Puts compilation builtinDispatch fuel frame state introduction construction) (calls : List Nat)
    (steps : List TraceStep) (next : Value → Evaluation Value) :
    ∃ state', ((evaluator compilation builtinDispatch (fuel + 1)).evaluateExpression introduction.expression frame >>= next) calls
        { state with steps := steps }
      = match construct construction with
        | .ok value => next value calls state'
        | .error error => (.error (.raised (.host error)), state') := by
  obtain ⟨state', hrun⟩ := run_introduction hputs calls steps
  rw [run_bind, hrun]
  cases construct construction with
  | ok value => exact ⟨_, rfl⟩
  | error error => exact ⟨state', rfl⟩

/-- The first alternative that the evaluator matches, with what it binds. -/
def chooseAlternative (alternatives : List (CasePattern × Expression)) (scrutinee : Value) :
    Option (Option (List (String × Value)) × Expression) :=
  (alternatives.find? fun alternative => matchesCaseAlternative alternative.1 scrutinee).map fun alternative =>
    (alternativeBindings alternative.1 scrutinee, alternative.2)

theorem chooseAlternative_single (pattern : CasePattern) (body : Expression) (scrutinee : Value) :
    chooseAlternative [(pattern, body)] scrutinee
      = if matchesCaseAlternative pattern scrutinee then some (alternativeBindings pattern scrutinee, body) else none := by
  rw [chooseAlternative, List.find?_cons]
  cases matchesCaseAlternative pattern scrutinee <;> rfl

theorem evaluateCase_eq (alternatives : List (CasePattern × Expression)) (scrutinee : Value) :
    evaluateCase self alternatives frame scrutinee
      = takeBranch self frame (noMatchingAlternative frame.definition.name alternatives scrutinee)
          (chooseAlternative alternatives scrutinee) := by
  rw [evaluateCase, chooseAlternative]
  cases alternatives.find? fun alternative => matchesCaseAlternative alternative.1 scrutinee with
  | none => rfl
  | some alternative =>
      obtain ⟨pattern, body⟩ := alternative
      dsimp only [Option.map_some]
      cases alternativeBindings pattern scrutinee <;> rfl

theorem run_case {introduction : Introduction} {construction : Construction}
    (hputs : Puts compilation builtinDispatch fuel frame state introduction construction)
    (alternatives : List (CasePattern × Expression)) :
    ∃ state', (evaluator compilation builtinDispatch (fuel + 2)).evaluateExpression
        (.caseExpression introduction.expression alternatives) frame openFrames state
      = finishExpression (.caseExpression introduction.expression alternatives) frame (openFrames ++ [frame.frameId])
        (match construct construction with
          | .ok value => takeBranch (evaluator compilation builtinDispatch (fuel + 1)) frame
              (noMatchingAlternative frame.definition.name alternatives value) (chooseAlternative alternatives value)
              (openFrames ++ [frame.frameId]) state'
          | .error error => (.error (.raised (.host error)), state')) := by
  obtain ⟨state', hrun⟩ := run_eliminated hputs (openFrames ++ [frame.frameId])
    (state.entered (.caseExpression introduction.expression alternatives) frame (openFrames ++ [frame.frameId])).steps
    (evaluateCase (evaluator compilation builtinDispatch (fuel + 1)) alternatives frame)
  refine ⟨state', ?_⟩
  rw [run_evaluateExpression, resolveExpressionValue]
  refine congrArg (finishExpression _ _ _) (hrun.trans ?_)
  cases construct construction with
  | ok value => exact congrFun (congrFun (evaluateCase_eq alternatives value) _) _
  | error error => rfl

theorem run_projection {introduction : Introduction} {construction : Construction}
    (hputs : Puts compilation builtinDispatch fuel frame state introduction construction) (name : String) :
    ∃ state', (evaluator compilation builtinDispatch (fuel + 2)).evaluateExpression
        (.recordProjection name introduction.expression) frame openFrames state
      = finishExpression (.recordProjection name introduction.expression) frame (openFrames ++ [frame.frameId])
        (match construct construction with
          | .ok value => liftHost (projectField compilation.getRecordFields value name) (openFrames ++ [frame.frameId]) state'
          | .error error => (.error (.raised (.host error)), state')) := by
  obtain ⟨state', hrun⟩ := run_eliminated hputs (openFrames ++ [frame.frameId])
    (state.entered (.recordProjection name introduction.expression) frame (openFrames ++ [frame.frameId])).steps
    fun recordValue => liftHost (projectField compilation.getRecordFields recordValue name)
  refine ⟨state', ?_⟩
  rw [run_evaluateExpression, resolveExpressionValue]
  exact congrArg (finishExpression _ _ _) hrun

end Runs

/-! ## Which branch is taken -/

section Branches

variable {construction : Construction} {value : Value} {alternatives : List (CasePattern × Expression)}

theorem choose_eq (h : ∀ alternative ∈ alternatives,
    (if matchesCaseAlternative alternative.1 value then some (alternativeBindings alternative.1 value) else none)
      = construction.matched alternative.1) :
    chooseAlternative alternatives value = construction.choose alternatives := by
  induction alternatives with
  | nil => rfl
  | cons alternative rest ih =>
      obtain ⟨hfirst, hrest⟩ := List.forall_mem_cons.mp h
      rw [Construction.choose, List.findSome?_cons, ← hfirst, chooseAlternative, List.find?_cons]
      cases matchesCaseAlternative alternative.1 value with
      | true => rfl
      | false => exact ih hrest

theorem unwrap_variant (constructorName : String) (component : Value) :
    unwrapRuntimeValue (hydrateRuntimeValue
        (.object [("constructor", .string constructorName), ("value", unwrapRuntimeValue component)] : HostRaw) none)
      = .object [("constructor", .string constructorName), ("value", unwrapRuntimeValue component)] := rfl

/-- A list is an array whose first element and rest are hydrated to what was put in, as far as that is kept. -/
theorem unwrap_cons {head tail : Value} {front : List Value} {items : List HostRaw}
    (htail : unwrapRuntimeValue tail = .array items) :
    ∃ value first rest, construct (.cons head front tail) = .ok value ∧ unwrapRuntimeValue value = .array (first :: rest) ∧
      hydrateRuntimeValue first none = hydrateRuntimeValue (unwrapRuntimeValue head) none ∧
      hydrateRuntimeValue (.array rest) none
        = hydrateRuntimeValue (.array (front.map unwrapRuntimeValue ++ items)) none := by
  obtain ⟨written, hwritten, hitems, hdrop⟩ :=
    unwrap_hydrate_array (unwrapRuntimeValue head :: (front.map unwrapRuntimeValue ++ items))
  have hconstruct : construct (.cons head front tail)
      = .ok (hydrateRuntimeValue (.array (unwrapRuntimeValue head :: (front.map unwrapRuntimeValue ++ items))) none) := by
    rw [construct, htail]
    rfl
  cases written with
  | nil => cases hitems
  | cons first rest => exact ⟨_, first, rest, hconstruct, hwritten, (List.cons.inj hitems).1, hdrop 1⟩

theorem hydrate_listOf {front : List Value} {tail : Value} {items : List HostRaw}
    (htail : unwrapRuntimeValue tail = .array items) (hkept : front = [] → IsKept tail) :
    hydrateRuntimeValue (.array (front.map unwrapRuntimeValue ++ items)) none = listOf front tail := by
  cases front with
  | nil =>
      have hsame := hkept rfl
      rwa [IsKept, htail] at hsame
  | cons first rest => simp [listOf, htail]

variable {compilation : EvaluatorCompilation}

theorem construct_ok (hkeeps : construction.Keeps compilation) : ∃ value, construct construction = .ok value := by
  cases construction with
  | cons head front tail =>
      obtain ⟨⟨items, htail⟩, -⟩ := hkeeps
      obtain ⟨value, -, -, hvalue, -⟩ := @unwrap_cons head tail front items htail
      exact ⟨value, hvalue⟩
  | _ => exact ⟨_, rfl⟩

/-- Where everything is kept, the evaluator matches what should match and binds what was put in. -/
theorem matched_of_keeps (hkeeps : construction.Keeps compilation) (hvalue : construct construction = .ok value)
    {pattern : CasePattern} (hfits : construction.fits pattern.patternKind = true) :
    (if matchesCaseAlternative pattern value then some (alternativeBindings pattern value) else none)
      = construction.matched pattern := by
  obtain ⟨kind, builtinConstructor, patternName, binderName, headBinderName, tailBinderName⟩ := pattern
  cases construction with
  | record fields => cases hfits
  | variant constructorName component =>
      cases hvalue
      have hread : hydrateRuntimeValue (unwrapRuntimeValue component) none = component := hkeeps
      cases kind <;> simp [Construction.fits] at hfits
      · rfl
      · by_cases hname : patternName = some constructorName <;>
          simp [matchesCaseAlternative, alternativeBindings, unwrap_variant, Construction.matched, readMarker, List.lookup_cons,
            hname, hread]
  | none =>
      cases hvalue
      cases kind <;> simp [Construction.fits] at hfits <;> rfl
  | some component =>
      cases hvalue
      obtain ⟨hunit, hread⟩ := hkeeps
      rw [IsKept] at hread
      cases kind <;> simp [Construction.fits] at hfits
      · rfl
      · simp [matchesCaseAlternative, Construction.matched, hunit]
      · simp [matchesCaseAlternative, Construction.matched, alternativeBindings, hunit, hread]
  | nil =>
      cases hvalue
      cases kind <;> simp [Construction.fits] at hfits <;> rfl
  | cons head front tail =>
      obtain ⟨⟨items, htail⟩, hhead, hrest⟩ := hkeeps
      obtain ⟨_, first, rest, hconstruct, hunwrap, hfirst, hothers⟩ := @unwrap_cons head tail front items htail
      cases hvalue.symm.trans hconstruct
      rw [show hydrateRuntimeValue (unwrapRuntimeValue head) none = head from hhead] at hfirst
      rw [hydrate_listOf htail hrest] at hothers
      cases kind <;> simp [Construction.fits] at hfits
      · rfl
      · simp [matchesCaseAlternative, Construction.matched, hunwrap]
      · simp [matchesCaseAlternative, Construction.matched, alternativeBindings, hunwrap, hfirst, hothers]

end Branches

/-! ## Where introduction and elimination cancel -/

section Cancellation

variable {compilation : EvaluatorCompilation} {builtinDispatch : BuiltinDispatch} {fuel : Nat} {frame : RuntimeFrame}
  {openFrames : List Nat} {state : EvaluatorState} {introduction : Introduction} {construction : Construction}

theorem fst_finishExpression (expression : Expression) (calls : List Nat) (result : Except Failure Value × EvaluatorState) :
    (finishExpression expression frame calls result).1 = result.1 := by
  rcases result with ⟨_ | _, _⟩ <;> rfl

theorem fst_liftHost {α : Type} (result : Except HostError α) (calls : List Nat) (state : EvaluatorState) :
    (liftHost result calls state).1 = result.mapError (.raised ∘ .host) := by
  cases result <;> rfl

/-- What is kept comes out again. -/
theorem cancels_of_keeps (hputs : Puts compilation builtinDispatch fuel frame state introduction construction)
    (hkeeps : construction.Keeps compilation) :
    Cancels compilation builtinDispatch fuel frame openFrames state introduction construction := by
  have hcase : ∀ alternatives, (∀ alternative ∈ alternatives, construction.fits alternative.1.patternKind = true) →
      ∃ failure state', (evaluator compilation builtinDispatch (fuel + 2)).evaluateExpression
          (.caseExpression introduction.expression alternatives) frame openFrames state
        = finishExpression (.caseExpression introduction.expression alternatives) frame (openFrames ++ [frame.frameId])
          (takeBranch (evaluator compilation builtinDispatch (fuel + 1)) frame failure (construction.choose alternatives)
            (openFrames ++ [frame.frameId]) state') := by
    intro alternatives hfits
    obtain ⟨value, hvalue⟩ := construct_ok hkeeps
    obtain ⟨state', hrun⟩ := @run_case _ _ _ _ openFrames _ _ _ hputs alternatives
    rw [hvalue] at hrun
    have hchoose := choose_eq fun alternative hmem => matched_of_keeps hkeeps hvalue (hfits alternative hmem)
    rw [← hchoose]
    exact ⟨_, state', hrun⟩
  cases construction with
  | record fields =>
      intro name value hlookup
      obtain ⟨state', hrun⟩ := @run_projection _ _ _ _ openFrames _ _ _ hputs name
      have hproject := (projectField_iff compilation.getRecordFields).mpr hkeeps name value hlookup
      rw [construct] at hrun
      dsimp only at hrun
      rw [hproject] at hrun
      exact ⟨_, hrun⟩
  | variant constructorName component => exact hcase
  | none => exact hcase
  | some component => exact hcase
  | nil => exact hcase
  | cons head front tail => exact hcase

/-- A variable that a branch binds has the value that it was bound to. -/
theorem fst_takeBranch_variable (failure : HostError) (value : Value) (calls : List Nat) (state : EvaluatorState) :
    (takeBranch (evaluator compilation builtinDispatch (fuel + 1)) frame failure
      (some (some [("x", value)], .variableName "x")) calls state).1 = .ok value := by
  rw [takeBranch, run_bind, run_deriveScopedFrame, andThen_ok, run_evaluateExpression, fst_finishExpression,
    resolveExpressionValue, run_bind, run_get, andThen_ok]
  have hfound : (frame.derive ⟨state.nextScope, frame.scope.chain⟩).scope.getBinding
      (state.addScope.setBindings state.nextScope [("x", value)]).scopes "x" = some value := by
    rw [LexicalScope.getBinding, LexicalScope.chain, findBinding]
    simp [RuntimeFrame.derive, EvaluatorState.setBindings, EvaluatorState.setBinding, KeyedMap.get_set_self]
  dsimp only [EvaluatorState.entered, EvaluatorState.addStep]
  rw [hfound]
  rfl

/-- A case expression with one alternative that binds a variable and returns it gives what was put in. -/
theorem fst_case_variable (hputs : Puts compilation builtinDispatch fuel frame state introduction construction)
    {pattern : CasePattern} {expected : Value} (hmatched : construction.matched pattern = some (some [("x", expected)]))
    (hcancels : ∃ failure state', (evaluator compilation builtinDispatch (fuel + 2)).evaluateExpression
          (.caseExpression introduction.expression [(pattern, .variableName "x")]) frame openFrames state
        = finishExpression (.caseExpression introduction.expression [(pattern, .variableName "x")]) frame
          (openFrames ++ [frame.frameId])
          (takeBranch (evaluator compilation builtinDispatch (fuel + 1)) frame failure
            (construction.choose [(pattern, .variableName "x")]) (openFrames ++ [frame.frameId]) state')) :
    ∃ value, construct construction = .ok value ∧ matchesCaseAlternative pattern value = true ∧
      ∀ found, alternativeBindings pattern value = some [("x", found)] → found = expected := by
  obtain ⟨failure, state', hcase⟩ := hcancels
  obtain ⟨state'', hrun⟩ := @run_case _ _ _ _ openFrames _ _ _ hputs [(pattern, .variableName "x")]
  have hresult := congrArg Prod.fst (hrun.symm.trans hcase)
  have hchoose : construction.choose [(pattern, .variableName "x")] = some (some [("x", expected)], .variableName "x") := by
    rw [Construction.choose, List.findSome?_cons, hmatched]
    rfl
  rw [fst_finishExpression, fst_finishExpression, hchoose, fst_takeBranch_variable] at hresult
  cases hconstruct : construct construction with
  | error error =>
      rw [hconstruct] at hresult
      cases hresult
  | ok value =>
      rw [hconstruct] at hresult
      dsimp only at hresult
      have hmatches : matchesCaseAlternative pattern value = true := by
        by_contra hnot
        rw [chooseAlternative_single, if_neg hnot] at hresult
        cases hresult
      refine ⟨value, rfl, hmatches, fun found hfound => ?_⟩
      rw [chooseAlternative_single, if_pos hmatches, hfound, fst_takeBranch_variable] at hresult
      exact Except.ok.inj hresult

/-- What comes out again is kept. -/
theorem keeps_of_cancels (hputs : Puts compilation builtinDispatch fuel frame state introduction construction)
    (hcancels : Cancels compilation builtinDispatch fuel frame openFrames state introduction construction) :
    construction.Keeps compilation := by
  cases construction with
  | record fields =>
      refine (projectField_iff compilation.getRecordFields).mp fun name value hlookup => ?_
      obtain ⟨state', hresult⟩ := hcancels name value hlookup
      obtain ⟨state'', hrun⟩ := @run_projection _ _ _ _ openFrames _ _ _ hputs name
      have hfst := congrArg Prod.fst (hrun.symm.trans hresult)
      rw [fst_finishExpression, construct] at hfst
      dsimp only at hfst
      rw [fst_liftHost] at hfst
      cases hproject : projectField compilation.getRecordFields (createRecordRuntimeValue fields) name with
      | error error =>
          rw [hproject] at hfst
          cases hfst
      | ok found =>
          rw [hproject] at hfst
          exact congrArg Except.ok (Except.ok.inj hfst)
  | variant constructorName component =>
      obtain ⟨value, hvalue, -, hbound⟩ := @fst_case_variable _ _ _ _ openFrames _ _ _ hputs
        ⟨.variant, none, some constructorName, some "x", none, none⟩ component
        (by simp [Construction.matched, binding]) (hcancels _ (List.forall_mem_singleton.mpr rfl))
      cases hvalue
      exact hbound _ (by simp [alternativeBindings, unwrap_variant, List.lookup_cons, binding])
  | none => trivial
  | some component =>
      obtain ⟨value, hvalue, hmatches, hbound⟩ := @fst_case_variable _ _ _ _ openFrames _ _ _ hputs
        ⟨.optionalSome, none, none, some "x", none, none⟩ component rfl (hcancels _ (List.forall_mem_singleton.mpr rfl))
      cases hvalue
      exact ⟨by simpa [matchesCaseAlternative] using hmatches, hbound _ rfl⟩
  | nil => trivial
  | cons head front tail =>
      have hheadCase := @fst_case_variable _ _ _ _ openFrames _ _ _ hputs
        ⟨.cons, none, none, none, some "x", none⟩ head rfl (hcancels _ (List.forall_mem_singleton.mpr rfl))
      have htailCase := @fst_case_variable _ _ _ _ openFrames _ _ _ hputs
        ⟨.cons, none, none, none, none, some "x"⟩ (listOf front tail) rfl (hcancels _ (List.forall_mem_singleton.mpr rfl))
      obtain ⟨value, hvalue, -, hhead⟩ := hheadCase
      obtain ⟨value', hvalue', -, htail⟩ := htailCase
      cases hvalue.symm.trans hvalue'
      have hitems : ∃ items, unwrapRuntimeValue tail = .array items := by
        rw [construct] at hvalue
        cases hraw : unwrapRuntimeValue tail with
        | array items => exact ⟨items, rfl⟩
        | _ =>
            rw [hraw] at hvalue
            cases hvalue
      obtain ⟨items, hitems⟩ := hitems
      obtain ⟨_, first, rest, hconstruct, hunwrap, hfirst, hothers⟩ := @unwrap_cons head tail front items hitems
      cases hvalue.symm.trans hconstruct
      refine ⟨⟨items, hitems⟩, ?_, ?_⟩
      · exact hfirst.symm.trans (hhead (hydrateRuntimeValue first none) (by simp [alternativeBindings, hunwrap, binding]))
      · rintro rfl
        have hsame := htail (hydrateRuntimeValue (.array rest) none) (by simp [alternativeBindings, hunwrap, binding])
        rw [IsKept, hitems]
        exact hothers.symm.trans hsame

theorem int64_puts (state : EvaluatorState) :
    Puts emptyCompilation (builtinDispatchOf fun _ => "") 1 RuntimeFrame.initial state (.record [("f", .int64Literal "1")])
      (.record [("f", .int64 "1")]) :=
  fun _ _ => ⟨_, rfl⟩

theorem text_puts (state : EvaluatorState) :
    Puts emptyCompilation (builtinDispatchOf fun _ => "") 1 RuntimeFrame.initial state (.variant "Named" (.textLiteral "a"))
      (.variant "Named" (.text "a")) :=
  fun _ _ => ⟨_, rfl⟩

end Cancellation

end CantonSdk.DamlLf.Interpreter
