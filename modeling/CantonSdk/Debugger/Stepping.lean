import CantonSdk.Debugger.SessionStore

/-!
# Where stepping lands

Stepping over a call and stepping out compare the number of frames. They land where the current frame has been left
exactly when no other frame takes its place before the stack gets smaller, and the frame is not entered again on a
smaller stack. What the caller does in between may have been filtered out, so a step of a sibling may come next.
-/

set_option linter.all false

namespace CantonSdk.Debugger

open CantonSdk.Base CantonSdk.DamlLf.Interpreter

namespace StoredReplaySession

variable {session : StoredReplaySession} {P Q : Nat → Prop} {index : Nat}

/-- The index is the first later one at which the property holds, or the last one if it holds at none. -/
def FirstLater (session : StoredReplaySession) (P : Nat → Prop) (index : Nat) : Prop :=
  session.currentStepIndex < index ∧ index < session.steps.length ∧ P index
      ∧ (∀ earlier, session.currentStepIndex < earlier → earlier < index → ¬ P earlier) ∨
    index = session.steps.length - 1
      ∧ ∀ later, session.currentStepIndex < later → later < session.steps.length → ¬ P later

/-- Before the last step, one property does not come true before the other. -/
def NotBefore (session : StoredReplaySession) (P Q : Nat → Prop) : Prop :=
  ∀ index, session.currentStepIndex < index → index + 1 < session.steps.length →
    (∀ earlier, session.currentStepIndex < earlier → earlier < index → ¬ Q earlier) → P index → Q index

theorem FirstLater.notBefore (hP : session.FirstLater P index) (hQ : session.FirstLater Q index) : session.NotBefore P Q := by
  intro other hafter hlast hnone hother
  rcases hQ with ⟨hlater, hlt, hindex, -⟩ | ⟨heq, hnever⟩
  · rcases lt_trichotomy other index with hbefore | rfl | hbehind
    · rcases hP with ⟨-, -, -, hfirst⟩ | ⟨-, hnever⟩
      · exact absurd hother (hfirst other hafter hbefore)
      · exact absurd hother (hnever other hafter (by omega))
    · exact hindex
    · exact absurd hindex (hnone index hlater hbehind)
  · rcases hP with ⟨-, -, -, hfirst⟩ | ⟨-, hnever'⟩
    · exact absurd hother (hfirst other hafter (by omega))
    · exact absurd hother (hnever' other hafter (by omega))

/-- Two properties are looked for at one place exactly when neither comes true before the other. -/
theorem FirstLater.iff_notBefore (hinside : session.currentStepIndex < session.steps.length)
    (hQ : session.FirstLater Q index) :
    session.FirstLater P index ↔ session.NotBefore P Q ∧ session.NotBefore Q P := by
  refine ⟨fun hP => ⟨hP.notBefore hQ, hQ.notBefore hP⟩, ?_⟩
  rintro ⟨hPQ, hQP⟩
  rcases hQ with ⟨hlater, hlt, hindex, hfirst⟩ | ⟨rfl, hnever⟩
  · have hnone : ∀ earlier, session.currentStepIndex < earlier → earlier < index → ¬ P earlier := by
      intro earlier hafter hbefore hearlier
      refine hfirst earlier hafter hbefore (hPQ earlier hafter (by omega) ?_ hearlier)
      exact fun other hother hlt => hfirst other hother (by omega)
    by_cases hlast : index + 1 < session.steps.length
    · exact .inl ⟨hlater, hlt, hQP index hlater hlast hnone hindex, hnone⟩
    · by_cases hP : P index
      · exact .inl ⟨hlater, hlt, hP, hnone⟩
      · refine .inr ⟨by omega, fun other hafter hother => ?_⟩
        rcases Nat.lt_or_ge other index with hbefore | hbehind
        · exact hnone other hafter hbefore
        · obtain rfl : other = index := by omega
          exact hP
  · have hnone : ∀ other, session.currentStepIndex < other → other + 1 < session.steps.length → ¬ P other := by
      intro other hafter hother hPother
      refine hnever other hafter (by omega) (hPQ other hafter hother ?_ hPother)
      exact fun earlier hearlier hlt => hnever earlier hearlier (by omega)
    by_cases hlast : session.currentStepIndex < session.steps.length - 1 ∧ P (session.steps.length - 1)
    · exact .inl ⟨hlast.1, by omega, hlast.2, fun earlier hafter hbefore => hnone earlier hafter (by omega)⟩
    · refine .inr ⟨rfl, fun other hafter hother hP => ?_⟩
      by_cases hbefore : other + 1 < session.steps.length
      · exact hnone other hafter hbefore hP
      · obtain rfl : other = session.steps.length - 1 := by omega
        exact hlast ⟨hafter, hP⟩

/-! ## What the search finds -/

theorem firstLater_findNext (session : StoredReplaySession) (predicate : ReplayStep → Bool) :
    session.FirstLater (fun index => session.steps[index]?.any predicate) (session.findNextIndexOrCurrent predicate) := by
  rw [findNextIndexOrCurrent]
  split
  · rename_i index hfound
    obtain ⟨hlt, hindex, hfirst⟩ := List.findIdx?_eq_some_iff_getElem.mp hfound
    rw [List.length_drop] at hlt
    rw [List.getElem_drop] at hindex
    refine .inl ⟨by omega, by omega, ?_, fun earlier hafter hbefore => ?_⟩
    · show session.steps[session.currentStepIndex + 1 + index]?.any predicate = true
      rw [List.getElem?_eq_getElem (by omega), Option.any_some]
      exact hindex
    · have hearlier := hfirst (earlier - (session.currentStepIndex + 1)) (by omega)
      have hplace : session.currentStepIndex + 1 + (earlier - (session.currentStepIndex + 1)) = earlier := by omega
      rw [List.getElem_drop] at hearlier
      simp only [hplace] at hearlier
      show ¬ session.steps[earlier]?.any predicate = true
      rw [List.getElem?_eq_getElem (by omega), Option.any_some]
      exact hearlier
  · rename_i hnone
    refine .inr ⟨rfl, fun later hafter hlt => ?_⟩
    have hmem : session.steps[later] ∈ session.steps.drop (session.currentStepIndex + 1) := by
      rw [List.mem_drop_iff_getElem]
      refine ⟨later - (session.currentStepIndex + 1), by omega, ?_⟩
      simp only [show session.currentStepIndex + 1 + (later - (session.currentStepIndex + 1)) = later by omega]
    show ¬ session.steps[later]?.any predicate = true
    rw [List.getElem?_eq_getElem hlt, Option.any_some, List.findIdx?_eq_none_iff.mp hnone _ hmem]
    decide

theorem FirstLater.congr (h : ∀ later, session.currentStepIndex < later → later < session.steps.length → (P later ↔ Q later))
    (hP : session.FirstLater P index) : session.FirstLater Q index := by
  rcases hP with ⟨hlater, hlt, hindex, hfirst⟩ | ⟨heq, hnever⟩
  · refine .inl ⟨hlater, hlt, (h index hlater hlt).mp hindex, fun earlier hafter hbefore hearlier => ?_⟩
    exact hfirst earlier hafter hbefore ((h earlier hafter (by omega)).mpr hearlier)
  · exact .inr ⟨heq, fun later hafter hlater hQ => hnever later hafter hlater ((h later hafter hlater).mpr hQ)⟩

/-! ## The current frame -/

/-- The frame on top of the stack of the current step; at a call it is the one that is called. -/
def topFrameId (session : StoredReplaySession) : Option Nat :=
  (session.stackFramesAt session.currentStepIndex).getLast?.map (·.frameId)

/-- The current frame is on the stack of the step at the index. -/
def IsOnStack (session : StoredReplaySession) (index : Nat) : Prop :=
  ∃ frame ∈ session.stackFramesAt index, some frame.frameId = session.topFrameId

instance (session : StoredReplaySession) (index : Nat) : Decidable (session.IsOnStack index) :=
  inferInstanceAs (Decidable (∃ frame ∈ session.stackFramesAt index, some frame.frameId = session.topFrameId))

/-- The stack of the step at the index has fewer frames than that of the current step. -/
def IsSmaller (session : StoredReplaySession) (index : Nat) : Prop :=
  (session.stackFramesAt index).length < (session.stackFramesAt session.currentStepIndex).length

/-- The index is that of the first later step where the current frame has been left, or that of the last step. -/
def LandsOutside (session : StoredReplaySession) (index : Nat) : Prop :=
  session.FirstLater (fun later => ¬ session.IsOnStack later) index

/-- Before the last step, the current frame is not left for another one on a stack as large, and not entered again on a
smaller one. -/
structure KeepsPlace (session : StoredReplaySession) : Prop where
  noSibling : session.NotBefore (fun later => ¬ session.IsOnStack later) session.IsSmaller
  noReentry : session.NotBefore session.IsSmaller fun later => ¬ session.IsOnStack later

theorem firstLater_advanceOut : session.FirstLater session.IsSmaller session.advanceOut.currentStepIndex := by
  refine (firstLater_findNext session _).congr fun later _ hlt => ?_
  have hstack : session.stackFramesAt later = session.steps[later].stackFrames := by
    rw [stackFramesAt, List.getElem?_eq_getElem hlt]
    rfl
  rw [IsSmaller, hstack, List.getElem?_eq_getElem hlt, Option.any_some, decide_eq_true_iff]

theorem advanceOver_call (hcall : session.currentStep.map (·.phase) = some .call) :
    session.advanceOver = session.advanceOut := by
  rw [advanceOver, if_neg (not_not.mpr hcall)]
  rfl

/-! ## Indices stay inside -/

/-- What is kept of a session while it is stepped through. -/
structure WellFormed (session : StoredReplaySession) : Prop where
  inside : session.currentStepIndex < session.steps.length
  framed : ∀ step ∈ session.steps, step.stackFrames ≠ []

theorem findNextIndexOrCurrent_lt (hinside : session.currentStepIndex < session.steps.length)
    (predicate : ReplayStep → Bool) : session.findNextIndexOrCurrent predicate < session.steps.length := by
  rcases firstLater_findNext session predicate with ⟨-, hlt, -⟩ | ⟨heq, -⟩
  · exact hlt
  · omega

theorem WellFormed.advance {advance : Advance} {advanced : StoredReplaySession} (h : session.WellFormed)
    (hadvance : session.advance advance = .ok advanced) : advanced.WellFormed := by
  have hinside := h.inside
  cases advance with
  | into =>
      obtain rfl := Except.ok.inj hadvance
      exact ⟨by simp only [advanceInto]; omega, h.framed⟩
  | back =>
      obtain rfl := Except.ok.inj hadvance
      exact ⟨by simp only [advanceBack]; omega, h.framed⟩
  | «over» =>
      obtain rfl := Except.ok.inj hadvance
      rw [advanceOver]
      split
      · exact ⟨by simp only [advanceInto]; omega, h.framed⟩
      · exact ⟨findNextIndexOrCurrent_lt hinside _, h.framed⟩
  | out =>
      obtain rfl := Except.ok.inj hadvance
      exact ⟨findNextIndexOrCurrent_lt hinside _, h.framed⟩
  | «continue» =>
      obtain rfl := Except.ok.inj hadvance
      exact ⟨by simp only [continueToEnd]; omega, h.framed⟩
  | setStep stepId =>
      rw [StoredReplaySession.advance, setCurrentStepById] at hadvance
      split at hadvance
      · cases hadvance
      · rename_i nextIndex hfound
        obtain rfl := Except.ok.inj hadvance
        exact ⟨(List.findIdx?_eq_some_iff_getElem.mp hfound).1, h.framed⟩

end StoredReplaySession

namespace ReplaySessionStore

open StoredReplaySession

variable {store : ReplaySessionStore} {sessionId : String} {session : StoredReplaySession}

theorem advance_ok {command : Advance} {result : ReplayStepAdvanceResult} {advanced : ReplaySessionStore}
    (h : advance store sessionId command = .ok (result, advanced)) :
    ∃ record next, store.get sessionId = some record ∧ record.advance command = .ok next ∧ advanced = store.set sessionId next := by
  rw [advance, getRecord] at h
  cases hget : store.get sessionId with
  | none =>
      rw [hget] at h
      cases h
  | some record =>
      rw [hget] at h
      cases hnext : record.advance command with
      | error message =>
          simp only [hnext, bind, Except.bind] at h
          cases h
      | ok next =>
          simp only [hnext, bind, Except.bind] at h
          exact ⟨record, next, rfl, hnext, (Prod.mk.inj (Except.ok.inj h)).2.symm⟩

/-- What one operation does keeps every session well formed. -/
theorem wellFormed_perform (operation : StoreOperation)
    (hstore : ∀ sessionId session, store.get sessionId = some session → session.WellFormed) :
    ∀ sessionId session, (perform store operation).get sessionId = some session → session.WellFormed := by
  intro sessionId session hget
  cases operation with
  | put loaded =>
      rw [perform, put, KeyedMap.get_set] at hget
      split at hget
      · obtain rfl := Option.some.inj hget
        exact ⟨List.length_pos_iff.mpr loaded.steps_ne, loaded.stackFrames_ne⟩
      · exact hstore sessionId session hget
  | advance other command =>
      rw [perform] at hget
      split at hget
      · rename_i result advanced hadvance
        obtain ⟨record, next, hrecord, hnext, rfl⟩ := advance_ok hadvance
        rw [KeyedMap.get_set] at hget
        split at hget
        · obtain rfl := Option.some.inj hget
          exact (hstore other record hrecord).advance hnext
        · exact hstore sessionId session hget
      · exact hstore sessionId session hget
  | dispose other =>
      rw [perform, KeyedMap.get_eq_some] at hget
      exact hstore sessionId session (KeyedMap.get_eq_some.mpr (KeyedMap.mem_entries_delete.mp hget).1)

/-- After any operations, every session is well formed. -/
theorem wellFormed_run (operations : List StoreOperation) :
    ∀ sessionId session, (run operations).get sessionId = some session → session.WellFormed := by
  have hfold : ∀ store : ReplaySessionStore,
      (∀ sessionId session, store.get sessionId = some session → session.WellFormed) →
      ∀ sessionId session, (operations.foldl perform store).get sessionId = some session → session.WellFormed := by
    induction operations with
    | nil => exact fun _ h => h
    | cons operation rest ih => exact fun store h => ih _ (wellFormed_perform operation h)
  exact hfold _ fun sessionId session hget => absurd hget (by simp)

end ReplaySessionStore

/-! ## Where the operations land -/

theorem steps_land_iff (operations : List StoreOperation) (sessionId : String) (session : StoredReplaySession)
    (h : (ReplaySessionStore.run operations).get sessionId = some session) :
    session.currentStepIndex < session.steps.length ∧ session.topFrameId ≠ none
      ∧ (session.currentStep.map (·.phase) = some .call →
        (session.LandsOutside session.advanceOver.currentStepIndex ↔ session.KeepsPlace))
      ∧ (session.LandsOutside session.advanceOut.currentStepIndex ↔ session.KeepsPlace) := by
  have hwellFormed := ReplaySessionStore.wellFormed_run operations sessionId session h
  have hout : session.LandsOutside session.advanceOut.currentStepIndex ↔ session.KeepsPlace := by
    rw [StoredReplaySession.LandsOutside,
      StoredReplaySession.firstLater_advanceOut.iff_notBefore hwellFormed.inside]
    exact ⟨fun h => ⟨h.1, h.2⟩, fun h => ⟨h.noSibling, h.noReentry⟩⟩
  refine ⟨hwellFormed.inside, ?_, fun hcall => ?_, hout⟩
  · have hframed := hwellFormed.framed _ (List.getElem_mem hwellFormed.inside)
    rw [StoredReplaySession.topFrameId, StoredReplaySession.stackFramesAt,
      List.getElem?_eq_getElem hwellFormed.inside]
    simpa using hframed
  · rw [StoredReplaySession.advanceOver_call hcall]
    exact hout

/-! ### Helpers without places -/

/-- A definition whose body has a place in a source file. -/
def locatedBody : Expression := .letExpression [("x", .int64Literal "1")] (.variableName "x")

/-- A compilation in which every reference leads to such a definition. -/
def locatedCompilation : EvaluatorCompilation :=
  { emptyCompilation with getValueDefinition := fun reference => .ok ⟨reference.definitionName, locatedBody⟩ }

/-- An entrypoint without places that refers to three definitions. -/
def helperEntrypoint : ValueDefinition :=
  ⟨"main", .recordConstruction [("a", .valueReference ⟨"main", "Main", "first"⟩),
    ("b", .valueReference ⟨"main", "Main", "second"⟩), ("c", .valueReference ⟨"main", "Main", "third"⟩)]⟩

/-- Only the bodies of the definitions have places. -/
def bodyMapper : SourceMapper where
  sourceLocation := fun traceStep =>
    match traceStep.expression with
    | .letExpression _ _ => some ⟨some "Main.daml", some 1, some 1, some 1, some 9, .exact⟩
    | _ => none
  executableFrameLabel := fun _ => none
  valueDefinition := fun _ => none

def helperTrace : List TraceStep :=
  ((evaluateReplayEntrypoint locatedCompilation (evaluator locatedCompilation (builtinDispatchOf fun _ => "") 9)
    helperEntrypoint emptyEnvironment) [] (EvaluatorState.initial none)).2.steps

def helperSteps : List ReplayStep := projectReplaySteps ⟨some bodyMapper, RuntimeValue.kind⟩ KeyedMap.empty helperTrace

theorem helperSteps_ne : helperSteps ≠ [] := by decide +kernel

def helperSession : LoadedReplaySession := ⟨"session", helperSteps, helperSteps_ne, stackFrames_ne_nil⟩

/-- Stepping out of the first definition skips the second, since its frame takes the place of the first one. -/
theorem sibling_is_skipped :
    loadSession ⟨some bodyMapper, RuntimeValue.kind⟩ "session" KeyedMap.empty helperTrace = some helperSession
      ∧ (ReplaySessionStore.run [.put helperSession, .advance "session" .into]).get "session" = some ⟨helperSteps, 1⟩
      ∧ ¬ (StoredReplaySession.mk helperSteps 1).LandsOutside (StoredReplaySession.mk helperSteps 1).advanceOut.currentStepIndex := by
  refine ⟨dif_pos helperSteps_ne, by decide +kernel, fun h => ?_⟩
  have hindex : (StoredReplaySession.mk helperSteps 1).advanceOut.currentStepIndex = 3 := by decide +kernel
  have hleft : ¬ (StoredReplaySession.mk helperSteps 1).IsOnStack 2 := by decide +kernel
  rw [hindex] at h
  rcases h with ⟨-, -, -, hfirst⟩ | ⟨-, hnever⟩
  · exact hfirst 2 (by decide) (by decide) hleft
  · exact hnever 2 (by decide) (by decide +kernel) hleft

theorem steps_land_iff_first :
    ∃ session, (ReplaySessionStore.run [.put helperSession]).get "session" = some session
      ∧ session.currentStepIndex < session.steps.length ∧ session.topFrameId ≠ none
      ∧ (session.currentStep.map (·.phase) = some .call →
        (session.LandsOutside session.advanceOver.currentStepIndex ↔ session.KeepsPlace))
      ∧ (session.LandsOutside session.advanceOut.currentStepIndex ↔ session.KeepsPlace) := by
  have hget : (ReplaySessionStore.run [.put helperSession]).get "session" = some ⟨helperSteps, 0⟩ := by decide +kernel
  exact ⟨_, hget, steps_land_iff _ _ _ hget⟩

end CantonSdk.Debugger
