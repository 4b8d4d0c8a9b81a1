import CantonSdk.Query.Grpc.CacheProtocol

/-!
# Invalidation is not undone by older work

The invariant says what `inflight` is for: an unsettled population is the one registered under its
key. So the promise an invalidation finds is the only older work, and once that has settled the delete
comes after every write an older population will ever make.
-/

set_option linter.all false

namespace CantonSdk.Query.Grpc

open CantonSdk.Base Function

variable {Key Snapshot : Type} [DecidableEq Key]

/-- Not written by a population that started before this call. -/
def StoredSnapshot.NotOlder (stored : StoredSnapshot Snapshot) (call : Nat) : Prop :=
  ∃ population, stored.writer = some population ∧ call ≤ population

/-- What the store has answered to a read, and when. -/
def ReadPhase.answer : ReadPhase Snapshot → Option (Nat × StoredSnapshot Snapshot)
  | .answered time (some stored) => some (time, stored)
  | .returned time (some stored) => some (time, stored)
  | _ => none

/-- What holds between any two steps. -/
structure CacheInvariant (s : CacheState Key Snapshot) : Prop where
  population_named : ∀ {name population}, s.populations name = some population → name < s.clock
  invalidation_named : ∀ {name invalidation},
    s.invalidations name = some invalidation → name < s.clock
  unsettled_inflight : ∀ {name population}, s.populations name = some population →
    population.phase.isSettled = false → s.inflight population.key = some name
  awaiting_older : ∀ {call key awaited}, s.invalidations call = some ⟨key, .awaiting awaited⟩ →
    ∀ {name population}, s.populations name = some population → population.key = key →
      name < call → population.phase.isSettled = false → awaited = some name
  drained_older : ∀ {call invalidation}, s.invalidations call = some invalidation →
    invalidation.phase.isDrained = true →
    ∀ {name population}, s.populations name = some population → population.key = invalidation.key →
      name < call → population.phase.isSettled = true
  deleted_store : ∀ {call invalidation}, s.invalidations call = some invalidation →
    invalidation.phase.hasDeleted = true →
    ∀ {stored}, s.store invalidation.key = some stored → stored.NotOlder call
  resolved_past : ∀ {call key time}, s.invalidations call = some ⟨key, .resolved time⟩ →
    time < s.clock
  answered_past : ∀ {name read time stored}, s.reads name = some read →
    read.phase.answer = some (time, stored) → time < s.clock
  answer_fresh : ∀ {name read time stored}, s.reads name = some read →
    read.phase.answer = some (time, stored) →
    ∀ {call resolvedAt}, s.invalidations call = some ⟨read.key, .resolved resolvedAt⟩ →
      resolvedAt ≤ time → stored.NotOlder call

omit [DecidableEq Key] in
theorem CacheInvariant.initial (content : Key → Option Snapshot) :
    CacheInvariant (CacheState.initial content) := by
  constructor <;> simp [CacheState.initial]

variable {actor : CacheActor} {s t : CacheState Key Snapshot}

omit [DecidableEq Key] in
/-- At most one population of a key has not settled. -/
theorem CacheInvariant.unsettled_unique (hs : CacheInvariant s) {left right : Nat}
    {leftPopulation rightPopulation : Population Key Snapshot}
    (hleft : s.populations left = some leftPopulation)
    (hright : s.populations right = some rightPopulation)
    (hkey : leftPopulation.key = rightPopulation.key)
    (hleftRuns : leftPopulation.phase.isSettled = false)
    (hrightRuns : rightPopulation.phase.isSettled = false) : left = right := by
  have hleftInflight := hs.unsettled_inflight hleft hleftRuns
  have hrightInflight := hs.unsettled_inflight hright hrightRuns
  rw [hkey] at hleftInflight
  exact Option.some.inj (hleftInflight.symm.trans hrightInflight)

/-- A population older than some call, and unsettled after a step, was there and unsettled before. -/
theorem CacheStep.older_before (h : CacheStep actor s t) {call : Nat}
    (hcall : call < s.clock + 1) {name : Nat} {population : Population Key Snapshot}
    (hpopulation : t.populations name = some population) (holder : name < call)
    (hruns : population.phase.isSettled = false) :
    ∃ before, s.populations name = some before ∧ before.key = population.key ∧
      before.phase.isSettled = false := by
  rcases h.population_cases hpopulation with ⟨before, hbefore, hkey, hsettled, _⟩ | ⟨hname, _⟩
  · exact ⟨before, hbefore, hkey, hsettled hruns⟩
  · omega

theorem CacheInvariant.invalidation_past (hs : CacheInvariant s) (h : CacheStep actor s t) {call : Nat}
    {invalidation : Invalidation Key} (hinvalidation : t.invalidations call = some invalidation) :
    call < s.clock + 1 := by
  have hbefore : call = s.clock ∨ ∃ before, s.invalidations call = some before := by
    rcases h.invalidation_cases hinvalidation with
      hsame | ⟨hname, _⟩ | ⟨_, hprevious, _⟩ | ⟨hprevious, _⟩ | ⟨hprevious, _⟩ | ⟨hprevious, _⟩
    · exact Or.inr ⟨_, hsame⟩
    · exact Or.inl hname
    all_goals exact Or.inr ⟨_, hprevious⟩
  rcases hbefore with hname | ⟨before, hbefore⟩
  · omega
  · have := hs.invalidation_named hbefore
    omega

/-- An answer after a step was there before, or is what the store holds now. -/
theorem CacheStep.answer_cases (h : CacheStep actor s t) {name : Nat}
    {read : SnapshotRead Key Snapshot} (hread : t.reads name = some read) {time : Nat}
    {stored : StoredSnapshot Snapshot} (hanswer : read.phase.answer = some (time, stored)) :
    (∃ before, s.reads name = some before ∧ before.key = read.key ∧
      before.phase.answer = some (time, stored)) ∨
    (time = s.clock ∧ s.store read.key = some stored) := by
  rcases h.read_cases hread with
    hsame | ⟨_, hphase⟩ | ⟨_, hphase⟩ | ⟨answeredAt, value, compatible, hbefore, hphase⟩
  · exact Or.inl ⟨read, hsame, rfl, hanswer⟩
  · simp [hphase, ReadPhase.answer] at hanswer
  · rw [hphase] at hanswer
    cases hstore : s.store read.key with
    | none => simp [hstore, ReadPhase.answer] at hanswer
    | some value =>
        simp only [hstore, ReadPhase.answer, Option.some.injEq, Prod.mk.injEq] at hanswer
        exact Or.inr ⟨hanswer.1.symm, congrArg some hanswer.2⟩
  · rw [hphase] at hanswer
    cases value with
    | none => simp [ReadPhase.answer] at hanswer
    | some value =>
        cases compatible with
        | false => simp [ReadPhase.answer] at hanswer
        | true => exact Or.inl ⟨_, hbefore, rfl, by simpa [ReadPhase.answer] using hanswer⟩

theorem CacheInvariant.step (hs : CacheInvariant s) (h : CacheStep actor s t) :
    CacheInvariant t where
  population_named := by
    intro name population hpopulation
    rw [h.clock_eq]
    rcases h.population_cases hpopulation with ⟨before, hbefore, _⟩ | ⟨hname, _⟩
    · have := hs.population_named hbefore
      omega
    · omega
  invalidation_named := by
    intro name invalidation hinvalidation
    rw [h.clock_eq]
    exact hs.invalidation_past h hinvalidation
  unsettled_inflight := by
    intro name population hpopulation hruns
    rcases h.population_cases hpopulation with ⟨before, hbefore, hkey, hsettled, _⟩ | ⟨_, _, hnew, _⟩
    · have hinflight := hs.unsettled_inflight hbefore (hsettled hruns)
      rw [hkey] at hinflight
      rcases h.inflight_persists hinflight with hkept | ⟨cleared, hcleared, hdone⟩
      · exact hkept
      · obtain rfl : cleared = before := Option.some.inj (hcleared.symm.trans hbefore)
        rw [hsettled hruns] at hdone
        cases hdone
    · exact hnew
  awaiting_older := by
    intro call key awaited hinvalidation name population hpopulation hkey holder hruns
    have hcall := hs.invalidation_past h hinvalidation
    obtain ⟨before, hbefore, hkeyBefore, hrunsBefore⟩ :=
      h.older_before hcall hpopulation holder hruns
    rcases h.invalidation_cases hinvalidation with
      hsame | ⟨_, hphase⟩ | ⟨_, _, hphase, _⟩ | ⟨_, hphase, _⟩ | ⟨_, hphase⟩ | ⟨_, hphase⟩
    · exact hs.awaiting_older hsame hbefore (hkeyBefore.trans hkey) holder hrunsBefore
    · have hinflight := hs.unsettled_inflight hbefore hrunsBefore
      rw [hkeyBefore, hkey] at hinflight
      rw [← hinflight]
      exact InvalidationPhase.awaiting.inj hphase
    all_goals simp at hphase
  drained_older := by
    intro call invalidation hinvalidation hdrained name population hpopulation hkey holder
    by_contra hruns
    rw [Bool.not_eq_true] at hruns
    have hcall := hs.invalidation_past h hinvalidation
    obtain ⟨before, hbefore, hkeyBefore, hrunsBefore⟩ :=
      h.older_before hcall hpopulation holder hruns
    have hkeyInvalidation := hkeyBefore.trans hkey
    -- A drained invalidation was drained already, unless this step is the one that drains it.
    have hcontra : ∀ {phase}, s.invalidations call = some ⟨invalidation.key, phase⟩ →
        phase.isDrained = true → False := by
      intro phase hprevious hphase
      have := hs.drained_older hprevious hphase hbefore hkeyInvalidation holder
      rw [hrunsBefore] at this
      cases this
    rcases h.invalidation_cases hinvalidation with
      hsame | ⟨_, hphase⟩ | ⟨awaited, hprevious, _, hsettled⟩ | ⟨hprevious, _, _⟩ |
        ⟨_, hphase⟩ | ⟨hprevious, _⟩
    · exact hcontra hsame hdrained
    · simp [hphase] at hdrained
    · have hawaited := hs.awaiting_older hprevious hbefore hkeyInvalidation holder hrunsBefore
      obtain ⟨settled, hpromise, hdone⟩ := hsettled name hawaited
      obtain rfl : settled = before := Option.some.inj (hpromise.symm.trans hbefore)
      rw [hrunsBefore] at hdone
      cases hdone
    · exact hcontra hprevious rfl
    · simp [hphase] at hdrained
    · exact hcontra hprevious rfl
  deleted_store := by
    intro call invalidation hinvalidation hdeleted stored hstored
    have hkept : ∀ {phase}, s.invalidations call = some ⟨invalidation.key, phase⟩ →
        phase.hasDeleted = true → stored.NotOlder call := by
      intro phase hprevious hphase
      rcases h.store_cases invalidation.key with
        hsame | hnone | ⟨name, population, snapshot, hpopulation, hkey, hruns, hwritten⟩
      · exact hs.deleted_store hprevious hphase (hsame.symm.trans hstored)
      · simp [hnone] at hstored
      · obtain rfl : (⟨some name, snapshot⟩ : StoredSnapshot Snapshot) = stored :=
          Option.some.inj (hwritten.symm.trans hstored)
        refine ⟨name, rfl, ?_⟩
        by_contra holder
        have := hs.drained_older hprevious (InvalidationPhase.isDrained_of_hasDeleted hphase)
          hpopulation hkey (by omega)
        rw [hruns] at this
        cases this
    rcases h.invalidation_cases hinvalidation with
      hsame | ⟨_, hphase⟩ | ⟨_, _, hphase, _⟩ | ⟨_, _, hnone⟩ | ⟨_, hphase⟩ | ⟨hprevious, _⟩
    · exact hkept hsame hdeleted
    · simp [hphase] at hdeleted
    · simp [hphase] at hdeleted
    · simp [hnone] at hstored
    · simp [hphase] at hdeleted
    · exact hkept hprevious rfl
  resolved_past := by
    intro call key time hinvalidation
    rw [h.clock_eq]
    rcases h.invalidation_cases hinvalidation with
      hsame | ⟨_, hphase⟩ | ⟨_, _, hphase, _⟩ | ⟨_, hphase, _⟩ | ⟨_, hphase⟩ | ⟨_, hphase⟩
    · have := hs.resolved_past hsame
      omega
    all_goals simp at hphase
    omega
  answered_past := by
    intro name read time stored hread hanswer
    rw [h.clock_eq]
    rcases h.answer_cases hread hanswer with ⟨before, hbefore, _, hsame⟩ | ⟨rfl, _⟩
    · have := hs.answered_past hbefore hsame
      omega
    · omega
  answer_fresh := by
    intro name read time stored hread hanswer call resolvedAt hinvalidation hlate
    -- An invalidation that resolves in this very step resolves after every earlier answer.
    have hearlier : s.invalidations call = some ⟨read.key, .resolved resolvedAt⟩ ∨
        s.invalidations call = some ⟨read.key, .deleting true⟩ ∧ resolvedAt = s.clock := by
      rcases h.invalidation_cases hinvalidation with
        hsame | ⟨_, hphase⟩ | ⟨_, _, hphase, _⟩ | ⟨_, hphase, _⟩ | ⟨_, hphase⟩ | ⟨hprevious, hphase⟩
      · exact Or.inl hsame
      all_goals simp at hphase
      exact Or.inr ⟨hprevious, hphase⟩
    rcases h.answer_cases hread hanswer with ⟨before, hbefore, hkey, hsame⟩ | ⟨rfl, hstored⟩
    · rcases hearlier with hresolved | ⟨_, rfl⟩
      · rw [← hkey] at hresolved
        exact hs.answer_fresh hbefore hsame hresolved hlate
      · have := hs.answered_past hbefore hsame
        omega
    · rcases hearlier with hresolved | ⟨hdeleting, _⟩
      · exact hs.deleted_store hresolved rfl hstored
      · exact hs.deleted_store hdeleting rfl hstored

theorem cacheInvariant_of_reachable (hs : (cacheProtocol Key Snapshot).Reachable s) :
    CacheInvariant s := by
  refine hs.invariant ?_ ?_
  · rintro _ ⟨content, rfl⟩
    exact CacheInvariant.initial content
  · rintro s t hinvariant ⟨actor, hstep⟩
    exact hinvariant.step hstep

/-- A write once applied is never followed by a failure of the population that issued it. -/
theorem hasWritten_of_run {name : Nat} (hs : CacheInvariant s) {population : Population Key Snapshot}
    (hpopulation : s.populations name = some population) (hwritten : population.phase.hasWritten = true)
    (hrun : (cacheProtocol Key Snapshot).Run s t) :
    ∃ after, t.populations name = some after ∧ after.phase.hasWritten = true := by
  let Written (u : CacheState Key Snapshot) : Prop :=
    CacheInvariant u ∧ ∃ after, u.populations name = some after ∧ after.phase.hasWritten = true
  have hpreserved : ∀ u v, Written u → (cacheProtocol Key Snapshot).step u v → Written v := by
    rintro u v ⟨hu, before, hbefore, hwrittenBefore⟩ ⟨actor, hstep⟩
    obtain ⟨after, hafter, hkept⟩ := hstep.population_persists hbefore (hu.population_named hbefore)
    exact ⟨hu.step hstep, after, hafter, hkept hwrittenBefore⟩
  exact (hrun.preserves hpreserved ⟨hs, population, hpopulation, hwritten⟩).2

/-- Once an invalidation has resolved, whatever the store answers to a read of that key was not written
by a population older than the invalidation; a key has at most one unsettled population; and no step
of a population that goes on to fail changes the store. -/
theorem invalidation_not_undone (hs : (cacheProtocol Key Snapshot).Reachable s) :
    (∀ call name key resolvedAt time stored,
      s.invalidations call = some ⟨key, .resolved resolvedAt⟩ →
      s.reads name = some ⟨key, .returned time (some stored)⟩ → resolvedAt ≤ time →
      stored.NotOlder call) ∧
    (∀ left right leftPopulation rightPopulation,
      s.populations left = some leftPopulation → s.populations right = some rightPopulation →
      leftPopulation.key = rightPopulation.key → leftPopulation.phase.isSettled = false →
      rightPopulation.phase.isSettled = false → left = right) ∧
    (∀ name t u key, CacheStep (.population name) s t → (cacheProtocol Key Snapshot).Run t u →
      u.populations name = some ⟨key, .settled false⟩ → t.store = s.store) := by
  have hinvariant := cacheInvariant_of_reachable hs
  refine ⟨?_, ?_, ?_⟩
  · intro call name key resolvedAt time stored hinvalidation hread hlate
    exact hinvariant.answer_fresh hread rfl hinvalidation hlate
  · intro left right leftPopulation rightPopulation hleft hright hkey hleftRuns hrightRuns
    exact hinvariant.unsettled_unique hleft hright hkey hleftRuns hrightRuns
  · intro name t u key hstep hrun hfailed
    rcases hstep.population_store with hsame | ⟨population, hpopulation, hwritten⟩
    · exact hsame
    · obtain ⟨after, hafter, hkept⟩ :=
        hasWritten_of_run (hinvariant.step hstep) hpopulation hwritten hrun
      obtain rfl : after = ⟨key, .settled false⟩ := Option.some.inj (hafter.symm.trans hfailed)
      cases hkept

/-- A run in which an invalidation waits for the population in flight, and the snapshot read after it
is the one a second population wrote. -/
theorem invalidation_not_undone_run :
    ∃ s : CacheState String Nat, (cacheProtocol String Nat).Reachable s ∧
      s.invalidations 1 = some ⟨"all", .resolved 9⟩ ∧
      s.reads 15 = some ⟨"all", .returned 16 (some ⟨some 10, 8⟩)⟩ ∧
      (⟨some 10, 8⟩ : StoredSnapshot Nat).NotOlder 1 := by
  let start : CacheState String Nat := CacheState.initial fun _ => none
  have h₀ : (cacheProtocol String Nat).Reachable start := .of_init ⟨_, rfl⟩
  have h₁ := h₀.step ⟨_, .cacheContracts _ "all" rfl⟩
  have h₂ := h₁.step ⟨_, .invalidateContractsCache _ "all"⟩
  have h₃ := h₂.step ⟨_, .populationContinues _ 0 _ _ rfl .baseForFull⟩
  have h₄ := h₃.step ⟨_, .populationContinues _ 0 _ _ rfl (.fullWrites 7)⟩
  have h₅ := h₄.step ⟨_, .populationWrites _ 0 _ _ _ rfl (.full 7)⟩
  have h₆ := h₅.step ⟨_, .populationContinues _ 0 _ _ rfl (.fullWritten 7)⟩
  have h₇ := h₆.step ⟨_, .clearInflight _ 0 _ _ rfl rfl⟩
  have h₈ := h₇.step ⟨_, .invalidationDeletes _ 1 _ _ rfl fun promise hpromise =>
    ⟨⟨"all", .settled true⟩, true, by obtain rfl := Option.some.inj hpromise; rfl, rfl⟩⟩
  have h₉ := h₈.step ⟨_, .deleteApplied _ 1 _ rfl⟩
  have h₁₀ := h₉.step ⟨_, .invalidationResolves _ 1 _ rfl⟩
  have h₁₁ := h₁₀.step ⟨_, .cacheContracts _ "all" rfl⟩
  have h₁₂ := h₁₁.step ⟨_, .populationContinues _ 10 _ _ rfl .baseForFull⟩
  have h₁₃ := h₁₂.step ⟨_, .populationContinues _ 10 _ _ rfl (.fullWrites 8)⟩
  have h₁₄ := h₁₃.step ⟨_, .populationWrites _ 10 _ _ _ rfl (.full 8)⟩
  have h₁₅ := h₁₄.step ⟨_, .populationContinues _ 10 _ _ rfl (.fullWritten 8)⟩
  have h₁₆ := h₁₅.step ⟨_, .readSnapshot _ "all"⟩
  have h₁₇ := h₁₆.step ⟨_, .readAnswered _ 15 _ rfl⟩
  have h₁₈ := h₁₇.step ⟨_, .readReturns _ 15 _ _ _ true rfl⟩
  exact ⟨_, h₁₈, rfl, rfl,
    (invalidation_not_undone h₁₈).1 1 15 "all" 9 16 _ rfl rfl (by decide)⟩

end CantonSdk.Query.Grpc
