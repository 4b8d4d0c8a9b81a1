import CantonSdk.Base.Transition
import Mathlib.Logic.Function.Basic

/-!
# The contract cache as a protocol

`GrpcContractCache` is a handful of asynchronous calls that share a store and the `inflight` map. Here
each call is cut at its awaits: what runs between two awaits is one step, and any call that is ready
may take the next one. The store is linearizable, so an operation is issued, takes effect in one
step of its own, and is answered later.

What a population computes between its awaits is left open, since only the order of the store
operations matters here; `ContractCache` says what it computes. A call is named by the clock when it
was made, so the order of names is the order of calls.
-/

set_option linter.all false

namespace CantonSdk.Query.Grpc

open CantonSdk.Base Function

variable {Key Snapshot : Type} [DecidableEq Key]

/-- A value of the store, with the population that wrote it; none for content found at the start. -/
structure StoredSnapshot (Snapshot : Type) where
  writer : Option Nat
  snapshot : Snapshot

/-- Where `populateAsync` stands. The flag of a write says whether the store has already applied it. -/
inductive PopulationPhase (Snapshot : Type) where
  /-- `populateAsync` awaits `store.getAsync`. -/
  | readingBase
  /-- `tryDeltaRefreshAsync` awaits the ledger. -/
  | readingDelta
  /-- `writeSnapshotAsync` awaits `store.setAsync`, for an unchanged (`noop`) or a patched base. -/
  | writingDelta (noop : Bool) (snapshot : Snapshot) (applied : Bool)
  /-- `fullRefreshAsync` awaits active-contract pages. -/
  | readingFull
  /-- `fullRefreshAsync` awaits `store.setAsync`. -/
  | writingFull (snapshot : Snapshot) (applied : Bool)
  /-- The promise has settled, resolved or rejected. -/
  | settled (resolved : Bool)

structure Population (Key Snapshot : Type) where
  key : Key
  phase : PopulationPhase Snapshot

inductive InvalidationPhase where
  /-- `await this.inflight.get(key)`, with the promise found in the map. -/
  | awaiting (population : Option Nat)
  /-- `await this.store.deleteAsync(key)`. -/
  | deleting (applied : Bool)
  /-- The call has resolved, at this time. -/
  | resolved (time : Nat)
  | rejected

structure Invalidation (Key : Type) where
  key : Key
  phase : InvalidationPhase

inductive ReadPhase (Snapshot : Type) where
  /-- `await this.store.getAsync(key)`. -/
  | pending
  /-- The store has answered, at this time. -/
  | answered (time : Nat) (value : Option (StoredSnapshot Snapshot))
  /-- The call has resolved with what the store answered at this time, or with nothing. -/
  | returned (time : Nat) (value : Option (StoredSnapshot Snapshot))

structure SnapshotRead (Key Snapshot : Type) where
  key : Key
  phase : ReadPhase Snapshot

structure CacheState (Key Snapshot : Type) where
  clock : Nat
  store : Key → Option (StoredSnapshot Snapshot)
  inflight : Key → Option Nat
  populations : Nat → Option (Population Key Snapshot)
  invalidations : Nat → Option (Invalidation Key)
  reads : Nat → Option (SnapshotRead Key Snapshot)

/-- A new cache, over a store that may already hold snapshots. -/
def CacheState.initial (content : Key → Option Snapshot) : CacheState Key Snapshot where
  clock := 0
  store := fun key => (content key).map (⟨none, ·⟩)
  inflight := fun _ => none
  populations := fun _ => none
  invalidations := fun _ => none
  reads := fun _ => none

/-- What a population does at an await without touching the store. -/
inductive PopulationPhase.Continues : PopulationPhase Snapshot → PopulationPhase Snapshot → Prop
  | baseRejected : Continues .readingBase (.settled false)
  | baseForDelta : Continues .readingBase .readingDelta
  | baseForFull : Continues .readingBase .readingFull
  /-- `tryDeltaRefreshAsync` returned `undefined`, or caught an error. -/
  | deltaAbandoned : Continues .readingDelta .readingFull
  | deltaWrites (noop : Bool) (snapshot : Snapshot) :
      Continues .readingDelta (.writingDelta noop snapshot false)
  /-- The noop refresh returns the promise of its write unawaited, so its failure is not caught. -/
  | noopRejected : Continues .readingDelta (.settled false)
  | noopWriteRejected (snapshot : Snapshot) :
      Continues (.writingDelta true snapshot false) (.settled false)
  /-- The delta refresh awaits its write inside the `try`, so a failure falls back to a download. -/
  | deltaWriteRejected (snapshot : Snapshot) :
      Continues (.writingDelta false snapshot false) .readingFull
  | deltaWritten (noop : Bool) (snapshot : Snapshot) :
      Continues (.writingDelta noop snapshot true) (.settled true)
  | fullWrites (snapshot : Snapshot) : Continues .readingFull (.writingFull snapshot false)
  | fullRejected : Continues .readingFull (.settled false)
  | fullWriteRejected (snapshot : Snapshot) :
      Continues (.writingFull snapshot false) (.settled false)
  | fullWritten (snapshot : Snapshot) : Continues (.writingFull snapshot true) (.settled true)

/-- The store applies the write a population has issued. -/
inductive PopulationPhase.Writes : PopulationPhase Snapshot → Snapshot → PopulationPhase Snapshot → Prop
  | delta (noop : Bool) (snapshot : Snapshot) :
      Writes (.writingDelta noop snapshot false) snapshot (.writingDelta noop snapshot true)
  | full (snapshot : Snapshot) :
      Writes (.writingFull snapshot false) snapshot (.writingFull snapshot true)

/-- Who takes a step. -/
inductive CacheActor where
  | caller
  | population (name : Nat)
  | invalidation (name : Nat)
  | read (name : Nat)
  | store

/-- One step between two awaits. -/
inductive CacheStep : CacheActor → CacheState Key Snapshot → CacheState Key Snapshot → Prop
  /-- `cacheContracts` finds a promise in `inflight` and returns it. -/
  | joinInflight (s : CacheState Key Snapshot) (key : Key) (name : Nat)
      (hinflight : s.inflight key = some name) :
      CacheStep .caller s { s with clock := s.clock + 1 }
  /-- `cacheContracts` starts a population and registers it. -/
  | cacheContracts (s : CacheState Key Snapshot) (key : Key) (hinflight : s.inflight key = none) :
      CacheStep .caller s
        { s with
          clock := s.clock + 1
          inflight := update s.inflight key (some s.clock)
          populations := update s.populations s.clock (some ⟨key, .readingBase⟩) }
  | populationContinues (s : CacheState Key Snapshot) (name : Nat) (population : Population Key Snapshot)
      (phase : PopulationPhase Snapshot) (hpopulation : s.populations name = some population)
      (hphase : population.phase.Continues phase) :
      CacheStep (.population name) s
        { s with
          clock := s.clock + 1
          populations := update s.populations name (some { population with phase := phase }) }
  | populationWrites (s : CacheState Key Snapshot) (name : Nat) (population : Population Key Snapshot)
      (snapshot : Snapshot) (phase : PopulationPhase Snapshot)
      (hpopulation : s.populations name = some population)
      (hphase : population.phase.Writes snapshot phase) :
      CacheStep (.population name) s
        { s with
          clock := s.clock + 1
          store := update s.store population.key (some ⟨some name, snapshot⟩)
          populations := update s.populations name (some { population with phase := phase }) }
  /-- The callback of a settled promise: `if (this.inflight.get(key) === promise) delete`. -/
  | clearInflight (s : CacheState Key Snapshot) (name : Nat) (population : Population Key Snapshot)
      (resolved : Bool) (hpopulation : s.populations name = some population)
      (hsettled : population.phase = .settled resolved) :
      CacheStep .caller s
        { s with
          clock := s.clock + 1
          inflight := if s.inflight population.key = some name
            then update s.inflight population.key none else s.inflight }
  | invalidateContractsCache (s : CacheState Key Snapshot) (key : Key) :
      CacheStep .caller s
        { s with
          clock := s.clock + 1
          invalidations := update s.invalidations s.clock (some ⟨key, .awaiting (s.inflight key)⟩) }
  /-- Nothing was in flight, or the awaited promise has settled either way: issue the delete. -/
  | invalidationDeletes (s : CacheState Key Snapshot) (name : Nat) (key : Key) (awaited : Option Nat)
      (hinvalidation : s.invalidations name = some ⟨key, .awaiting awaited⟩)
      (hsettled : ∀ promise, awaited = some promise → ∃ population resolved,
        s.populations promise = some population ∧ population.phase = .settled resolved) :
      CacheStep (.invalidation name) s
        { s with
          clock := s.clock + 1
          invalidations := update s.invalidations name (some ⟨key, .deleting false⟩) }
  | deleteApplied (s : CacheState Key Snapshot) (name : Nat) (key : Key)
      (hinvalidation : s.invalidations name = some ⟨key, .deleting false⟩) :
      CacheStep (.invalidation name) s
        { s with
          clock := s.clock + 1
          store := update s.store key none
          invalidations := update s.invalidations name (some ⟨key, .deleting true⟩) }
  | deleteRejected (s : CacheState Key Snapshot) (name : Nat) (key : Key)
      (hinvalidation : s.invalidations name = some ⟨key, .deleting false⟩) :
      CacheStep (.invalidation name) s
        { s with
          clock := s.clock + 1
          invalidations := update s.invalidations name (some ⟨key, .rejected⟩) }
  | invalidationResolves (s : CacheState Key Snapshot) (name : Nat) (key : Key)
      (hinvalidation : s.invalidations name = some ⟨key, .deleting true⟩) :
      CacheStep (.invalidation name) s
        { s with
          clock := s.clock + 1
          invalidations := update s.invalidations name (some ⟨key, .resolved s.clock⟩) }
  | readSnapshot (s : CacheState Key Snapshot) (key : Key) :
      CacheStep .caller s
        { s with
          clock := s.clock + 1
          reads := update s.reads s.clock (some ⟨key, .pending⟩) }
  | readAnswered (s : CacheState Key Snapshot) (name : Nat) (key : Key)
      (hread : s.reads name = some ⟨key, .pending⟩) :
      CacheStep (.read name) s
        { s with
          clock := s.clock + 1
          reads := update s.reads name (some ⟨key, .answered s.clock (s.store key)⟩) }
  /-- `asCompatibleSnapshot` keeps the stored value or refuses it, for instance as expired. -/
  | readReturns (s : CacheState Key Snapshot) (name : Nat) (key : Key) (time : Nat)
      (value : Option (StoredSnapshot Snapshot)) (compatible : Bool)
      (hread : s.reads name = some ⟨key, .answered time value⟩) :
      CacheStep (.read name) s
        { s with
          clock := s.clock + 1
          reads := update s.reads name
            (some ⟨key, .returned time (if compatible then value else none)⟩) }
  /-- The store drops an entry whose time to live has passed. -/
  | storeExpires (s : CacheState Key Snapshot) (key : Key) :
      CacheStep .store s { s with clock := s.clock + 1, store := update s.store key none }

/-- The protocol: every interleaving of the steps of one cache. -/
def cacheProtocol (Key Snapshot : Type) [DecidableEq Key] :
    TransitionSystem (CacheState Key Snapshot) where
  init s := ∃ content, s = CacheState.initial content
  step s t := ∃ actor, CacheStep actor s t

/-! ### What one step does to each part of the state -/

namespace PopulationPhase

def isSettled : PopulationPhase Snapshot → Bool
  | settled _ => true
  | _ => false

/-- The store has applied this population's write. -/
def hasWritten : PopulationPhase Snapshot → Bool
  | writingDelta _ _ applied => applied
  | writingFull _ applied => applied
  | settled resolved => resolved
  | _ => false

theorem Continues.unsettled {before after : PopulationPhase Snapshot} (h : before.Continues after) :
    before.isSettled = false := by
  cases h <;> rfl

theorem Continues.hasWritten_eq {before after : PopulationPhase Snapshot}
    (h : before.Continues after) : after.hasWritten = before.hasWritten := by
  cases h <;> rfl

theorem Writes.unsettled {before after : PopulationPhase Snapshot} {snapshot : Snapshot}
    (h : before.Writes snapshot after) : before.isSettled = false := by
  cases h <;> rfl

theorem Writes.hasWritten_after {before after : PopulationPhase Snapshot} {snapshot : Snapshot}
    (h : before.Writes snapshot after) : after.hasWritten = true := by
  cases h <;> rfl

end PopulationPhase

namespace InvalidationPhase

/-- The promise this invalidation saw has settled. -/
def isDrained : InvalidationPhase → Bool
  | deleting _ => true
  | resolved _ => true
  | _ => false

/-- The store has applied this invalidation's delete. -/
def hasDeleted : InvalidationPhase → Bool
  | deleting applied => applied
  | resolved _ => true
  | _ => false

@[simp] theorem isDrained_awaiting (awaited : Option Nat) : (awaiting awaited).isDrained = false := rfl

@[simp] theorem isDrained_rejected : rejected.isDrained = false := rfl

@[simp] theorem hasDeleted_awaiting (awaited : Option Nat) :
    (awaiting awaited).hasDeleted = false := rfl

@[simp] theorem hasDeleted_deleting (applied : Bool) : (deleting applied).hasDeleted = applied := rfl

@[simp] theorem hasDeleted_rejected : rejected.hasDeleted = false := rfl

theorem isDrained_of_hasDeleted {phase : InvalidationPhase} (h : phase.hasDeleted = true) :
    phase.isDrained = true := by
  cases phase with
  | awaiting | rejected => simp at h
  | deleting | resolved => rfl

end InvalidationPhase

variable {actor : CacheActor} {s t : CacheState Key Snapshot}

theorem CacheStep.clock_eq (h : CacheStep actor s t) : t.clock = s.clock + 1 := by
  cases h <;> rfl

/-- A population after a step is one from before, settled if it was, or the one just started. -/
theorem CacheStep.population_cases (h : CacheStep actor s t) {name : Nat}
    {population : Population Key Snapshot} (hpopulation : t.populations name = some population) :
    (∃ before, s.populations name = some before ∧ before.key = population.key ∧
      (population.phase.isSettled = false → before.phase.isSettled = false) ∧
      (before.phase.hasWritten = true → population.phase.hasWritten = true)) ∨
    (name = s.clock ∧ s.inflight population.key = none ∧
      t.inflight population.key = some name ∧ population.phase.hasWritten = false) := by
  cases h with
  | cacheContracts _ key hinflight =>
      by_cases hname : name = s.clock
      · subst hname
        obtain rfl : (⟨key, .readingBase⟩ : Population Key Snapshot) = population := by
          simpa using hpopulation
        exact Or.inr ⟨rfl, hinflight, by simp, rfl⟩
      · exact Or.inl ⟨population, by simpa [hname] using hpopulation, rfl, id, id⟩
  | populationContinues _ changed before phase hbefore hphase =>
      by_cases hname : name = changed
      · subst hname
        obtain rfl : { before with phase := phase } = population := by simpa using hpopulation
        exact Or.inl ⟨before, hbefore, rfl, fun _ => hphase.unsettled,
          fun hwritten => hphase.hasWritten_eq.trans hwritten⟩
      · exact Or.inl ⟨population, by simpa [hname] using hpopulation, rfl, id, id⟩
  | populationWrites _ changed before snapshot phase hbefore hphase =>
      by_cases hname : name = changed
      · subst hname
        obtain rfl : { before with phase := phase } = population := by simpa using hpopulation
        exact Or.inl ⟨before, hbefore, rfl, fun _ => hphase.unsettled,
          fun _ => hphase.hasWritten_after⟩
      · exact Or.inl ⟨population, by simpa [hname] using hpopulation, rfl, id, id⟩
  | _ => exact Or.inl ⟨population, hpopulation, rfl, id, id⟩

/-- Populations are never forgotten, and a write once applied stays applied. -/
theorem CacheStep.population_persists (h : CacheStep actor s t) {name : Nat}
    {population : Population Key Snapshot} (hpopulation : s.populations name = some population)
    (hname : name < s.clock) :
    ∃ after, t.populations name = some after ∧
      (population.phase.hasWritten = true → after.phase.hasWritten = true) := by
  cases h with
  | cacheContracts _ key hinflight =>
      exact ⟨population, by simpa [Nat.ne_of_lt hname] using hpopulation, id⟩
  | populationContinues _ changed before phase hbefore hphase =>
      by_cases heq : name = changed
      · subst heq
        obtain rfl : before = population := Option.some.inj (hbefore.symm.trans hpopulation)
        exact ⟨{ before with phase := phase }, by simp, fun hwritten =>
          hphase.hasWritten_eq.trans hwritten⟩
      · exact ⟨population, by simpa [heq] using hpopulation, id⟩
  | populationWrites _ changed before snapshot phase hbefore hphase =>
      by_cases heq : name = changed
      · subst heq
        exact ⟨{ before with phase := phase }, by simp, fun _ => hphase.hasWritten_after⟩
      · exact ⟨population, by simpa [heq] using hpopulation, id⟩
  | _ => exact ⟨population, hpopulation, id⟩

/-- The store at a key after a step: as before, emptied, or written by a population still running. -/
theorem CacheStep.store_cases (h : CacheStep actor s t) (key : Key) :
    t.store key = s.store key ∨ t.store key = none ∨
    ∃ name population snapshot, s.populations name = some population ∧ population.key = key ∧
      population.phase.isSettled = false ∧ t.store key = some ⟨some name, snapshot⟩ := by
  cases h with
  | populationWrites _ name population snapshot phase hpopulation hphase =>
      by_cases hkey : key = population.key
      · subst hkey
        exact Or.inr (Or.inr ⟨name, population, snapshot, hpopulation, rfl, hphase.unsettled,
          by simp⟩)
      · exact Or.inl (by simp [hkey])
  | deleteApplied _ name deleted _ =>
      by_cases hkey : key = deleted
      · exact Or.inr (Or.inl (by simp [hkey]))
      · exact Or.inl (by simp [hkey])
  | storeExpires _ expired =>
      by_cases hkey : key = expired
      · exact Or.inr (Or.inl (by simp [hkey]))
      · exact Or.inl (by simp [hkey])
  | _ => exact Or.inl rfl

/-- An unsettled population stays registered: only a settled one is cleared from `inflight`. -/
theorem CacheStep.inflight_persists (h : CacheStep actor s t) {key : Key} {name : Nat}
    (hinflight : s.inflight key = some name) :
    t.inflight key = some name ∨
    ∃ population, s.populations name = some population ∧ population.phase.isSettled = true := by
  cases h with
  | cacheContracts _ started hnone =>
      have hkey : key ≠ started := by
        rintro rfl
        simp [hinflight] at hnone
      exact Or.inl (by simpa [hkey] using hinflight)
  | clearInflight _ cleared population resolved hpopulation hsettled =>
      by_cases hmatch : s.inflight population.key = some cleared
      · by_cases hkey : key = population.key
        · subst hkey
          obtain rfl : cleared = name := Option.some.inj (hmatch.symm.trans hinflight)
          exact Or.inr ⟨population, hpopulation, by rw [hsettled]; rfl⟩
        · exact Or.inl (by simpa [hmatch, hkey] using hinflight)
      · exact Or.inl (by simpa [hmatch] using hinflight)
  | _ => exact Or.inl hinflight

/-- What one step does to an invalidation. -/
theorem CacheStep.invalidation_cases (h : CacheStep actor s t) {name : Nat}
    {invalidation : Invalidation Key} (hinvalidation : t.invalidations name = some invalidation) :
    s.invalidations name = some invalidation ∨
    (name = s.clock ∧ invalidation.phase = .awaiting (s.inflight invalidation.key)) ∨
    (∃ awaited, s.invalidations name = some ⟨invalidation.key, .awaiting awaited⟩ ∧
      invalidation.phase = .deleting false ∧
      ∀ promise, awaited = some promise → ∃ population, s.populations promise = some population ∧
        population.phase.isSettled = true) ∨
    (s.invalidations name = some ⟨invalidation.key, .deleting false⟩ ∧
      invalidation.phase = .deleting true ∧ t.store invalidation.key = none) ∨
    (s.invalidations name = some ⟨invalidation.key, .deleting false⟩ ∧
      invalidation.phase = .rejected) ∨
    (s.invalidations name = some ⟨invalidation.key, .deleting true⟩ ∧
      invalidation.phase = .resolved s.clock) := by
  cases h with
  | invalidateContractsCache _ key =>
      by_cases hname : name = s.clock
      · subst hname
        obtain rfl : (⟨key, .awaiting (s.inflight key)⟩ : Invalidation Key) = invalidation := by
          simpa using hinvalidation
        exact Or.inr (Or.inl ⟨rfl, rfl⟩)
      · exact Or.inl (by simpa [hname] using hinvalidation)
  | invalidationDeletes _ changed key awaited hbefore hsettled =>
      by_cases hname : name = changed
      · subst hname
        obtain rfl : (⟨key, .deleting false⟩ : Invalidation Key) = invalidation := by
          simpa using hinvalidation
        refine Or.inr (Or.inr (Or.inl ⟨awaited, hbefore, rfl, fun promise hpromise => ?_⟩))
        obtain ⟨population, resolved, hpopulation, hphase⟩ := hsettled promise hpromise
        exact ⟨population, hpopulation, by rw [hphase]; rfl⟩
      · exact Or.inl (by simpa [hname] using hinvalidation)
  | deleteApplied _ changed key hbefore =>
      by_cases hname : name = changed
      · subst hname
        obtain rfl : (⟨key, .deleting true⟩ : Invalidation Key) = invalidation := by
          simpa using hinvalidation
        exact Or.inr (Or.inr (Or.inr (Or.inl ⟨hbefore, rfl, by simp⟩)))
      · exact Or.inl (by simpa [hname] using hinvalidation)
  | deleteRejected _ changed key hbefore =>
      by_cases hname : name = changed
      · subst hname
        obtain rfl : (⟨key, .rejected⟩ : Invalidation Key) = invalidation := by
          simpa using hinvalidation
        exact Or.inr (Or.inr (Or.inr (Or.inr (Or.inl ⟨hbefore, rfl⟩))))
      · exact Or.inl (by simpa [hname] using hinvalidation)
  | invalidationResolves _ changed key hbefore =>
      by_cases hname : name = changed
      · subst hname
        obtain rfl : (⟨key, .resolved s.clock⟩ : Invalidation Key) = invalidation := by
          simpa using hinvalidation
        exact Or.inr (Or.inr (Or.inr (Or.inr (Or.inr ⟨hbefore, rfl⟩))))
      · exact Or.inl (by simpa [hname] using hinvalidation)
  | _ => exact Or.inl hinvalidation

/-- What one step does to a read. -/
theorem CacheStep.read_cases (h : CacheStep actor s t) {name : Nat}
    {read : SnapshotRead Key Snapshot} (hread : t.reads name = some read) :
    s.reads name = some read ∨
    (name = s.clock ∧ read.phase = .pending) ∨
    (s.reads name = some ⟨read.key, .pending⟩ ∧
      read.phase = .answered s.clock (s.store read.key)) ∨
    ∃ time value, ∃ compatible : Bool, s.reads name = some ⟨read.key, .answered time value⟩ ∧
      read.phase = .returned time (if compatible then value else none) := by
  cases h with
  | readSnapshot _ key =>
      by_cases hname : name = s.clock
      · subst hname
        obtain rfl : (⟨key, .pending⟩ : SnapshotRead Key Snapshot) = read := by simpa using hread
        exact Or.inr (Or.inl ⟨rfl, rfl⟩)
      · exact Or.inl (by simpa [hname] using hread)
  | readAnswered _ changed key hbefore =>
      by_cases hname : name = changed
      · subst hname
        obtain rfl : (⟨key, .answered s.clock (s.store key)⟩ : SnapshotRead Key Snapshot) = read := by
          simpa using hread
        exact Or.inr (Or.inr (Or.inl ⟨hbefore, rfl⟩))
      · exact Or.inl (by simpa [hname] using hread)
  | readReturns _ changed key time value compatible hbefore =>
      by_cases hname : name = changed
      · subst hname
        obtain rfl : (⟨key, .returned time (if compatible then value else none)⟩ :
            SnapshotRead Key Snapshot) = read := by simpa using hread
        exact Or.inr (Or.inr (Or.inr ⟨time, value, compatible, hbefore, rfl⟩))
      · exact Or.inl (by simpa [hname] using hread)
  | _ => exact Or.inl hread

/-- A step of a population leaves the store alone, or is the one in which its write is applied. -/
theorem CacheStep.population_store {name : Nat} (h : CacheStep (.population name) s t) :
    t.store = s.store ∨
    ∃ population, t.populations name = some population ∧ population.phase.hasWritten = true := by
  cases h with
  | populationContinues => exact Or.inl rfl
  | populationWrites =>
      exact Or.inr ⟨_, update_self .., PopulationPhase.Writes.hasWritten_after ‹_›⟩

end CantonSdk.Query.Grpc
