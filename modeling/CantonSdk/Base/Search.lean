import CantonSdk.Base.Traversal
import Mathlib.Data.Set.Finite.Lattice
import Mathlib.Logic.Relation

/-!
# Searches with alternatives

A job is decided at once, or needs all of some jobs, or one of them. They are looked at in order, and no more of them
than it takes to decide the job. With fuel for jobs nested to a given depth, a job ends or is given up. It ends for some
fuel exactly when the jobs that it comes to have no endless chain.
-/

set_option linter.all false

namespace CantonSdk.Base

universe u

inductive Goal (J : Type u)
  | decided (holds : Bool)
  | all (jobs : List J)
  | any (jobs : List J)

/-- The jobs that a goal is about. -/
def Goal.parts {J : Type u} : Goal J → List J
  | .decided _ => []
  | .all jobs => jobs
  | .any jobs => jobs

/-- Goes on if all failed so far. -/
def Status.orElse : Status → Status → Status
  | .failed, next => next
  | status, _ => status

namespace Search

variable {J : Type u}

def runAll (status : J → Status) : List J → Status
  | [] => .done
  | job :: rest => (status job).andThen (runAll status rest)

def runAny (status : J → Status) : List J → Status
  | [] => .failed
  | job :: rest => (status job).orElse (runAny status rest)

def runGoal (status : J → Status) : Goal J → Status
  | .decided true => .done
  | .decided false => .failed
  | .all jobs => runAll status jobs
  | .any jobs => runAny status jobs

variable (goal : J → Goal J)

/-- The status of a job when jobs are followed to the given depth. -/
def status : Nat → J → Status
  | 0, _ => .gaveUp
  | fuel + 1, job => runGoal (status fuel) (goal job)

/-- The job has a derivation. -/
inductive Succeeds : J → Prop
  | decided {job : J} (h : goal job = .decided true) : Succeeds job
  | all {job : J} {jobs : List J} (h : goal job = .all jobs) (hjobs : ∀ called ∈ jobs, Succeeds called) : Succeeds job
  | any {job called : J} {jobs : List J} (h : goal job = .any jobs) (hmem : called ∈ jobs) (hcalled : Succeeds called) :
      Succeeds job

/-- The job comes to look at the other one. -/
inductive Comes : J → J → Prop
  | all {job called : J} (front back : List J) (h : goal job = .all (front ++ called :: back))
      (hfront : ∀ earlier ∈ front, Succeeds goal earlier) : Comes job called
  | any {job called : J} (front back : List J) (h : goal job = .any (front ++ called :: back))
      (hfront : ∀ earlier ∈ front, ¬ Succeeds goal earlier) : Comes job called

def Finishes (fuel : Nat) (job : J) : Prop := status goal fuel job ≠ .gaveUp

/-- There is no endless chain of jobs that the job comes to. -/
def Founded (job : J) : Prop := Acc (fun called job => Comes goal job called) job

variable {goal} {job called : J} {jobs list : List J} {fuel : Nat} {current : J → Status}

/-! ## What the status says -/

theorem succeeds_all (h : goal job = .all jobs) : Succeeds goal job ↔ ∀ called ∈ jobs, Succeeds goal called := by
  constructor
  · rintro (hdecided | ⟨hall, hjobs⟩ | ⟨hany, -, -⟩)
    · cases h.symm.trans hdecided
    · cases h.symm.trans hall
      exact hjobs
    · cases h.symm.trans hany
  · exact .all h

theorem succeeds_any (h : goal job = .any jobs) : Succeeds goal job ↔ ∃ called ∈ jobs, Succeeds goal called := by
  constructor
  · rintro (hdecided | ⟨hall, -⟩ | ⟨hany, hmem, hcalled⟩)
    · cases h.symm.trans hdecided
    · cases h.symm.trans hall
    · cases h.symm.trans hany
      exact ⟨_, hmem, hcalled⟩
  · rintro ⟨called, hmem, hcalled⟩
    exact .any h hmem hcalled

theorem succeeds_decided {holds : Bool} (h : goal job = .decided holds) : Succeeds goal job ↔ holds = true := by
  constructor
  · rintro (hdecided | ⟨hall, -⟩ | ⟨hany, -, -⟩)
    · cases h.symm.trans hdecided
      rfl
    · cases h.symm.trans hall
    · cases h.symm.trans hany
  · rintro rfl
    exact .decided h

/-- What the status says of a job is so. -/
structure Sound (goal : J → Goal J) (current : J → Status) : Prop where
  done : ∀ job, current job = .done → Succeeds goal job
  failed : ∀ job, current job = .failed → ¬ Succeeds goal job

theorem runAll_done (hsound : Sound goal current) (h : runAll current list = .done) :
    ∀ job ∈ list, Succeeds goal job := by
  induction list with
  | nil => exact fun _ hmem => absurd hmem List.not_mem_nil
  | cons job rest ih =>
      rw [runAll] at h
      cases hjob : current job with
      | done =>
          rw [hjob] at h
          exact List.forall_mem_cons.mpr ⟨hsound.done job hjob, ih h⟩
      | failed => simp [hjob, Status.andThen] at h
      | gaveUp => simp [hjob, Status.andThen] at h

theorem runAll_failed (hsound : Sound goal current) (h : runAll current list = .failed) :
    ∃ job ∈ list, ¬ Succeeds goal job := by
  induction list with
  | nil => cases h
  | cons job rest ih =>
      rw [runAll] at h
      cases hjob : current job with
      | done =>
          rw [hjob] at h
          obtain ⟨other, hmem, hother⟩ := ih h
          exact ⟨other, List.mem_cons_of_mem _ hmem, hother⟩
      | failed => exact ⟨job, List.mem_cons_self, hsound.failed job hjob⟩
      | gaveUp => simp [hjob, Status.andThen] at h

theorem runAny_done (hsound : Sound goal current) (h : runAny current list = .done) :
    ∃ job ∈ list, Succeeds goal job := by
  induction list with
  | nil => cases h
  | cons job rest ih =>
      rw [runAny] at h
      cases hjob : current job with
      | done => exact ⟨job, List.mem_cons_self, hsound.done job hjob⟩
      | failed =>
          rw [hjob] at h
          obtain ⟨other, hmem, hother⟩ := ih h
          exact ⟨other, List.mem_cons_of_mem _ hmem, hother⟩
      | gaveUp => simp [hjob, Status.orElse] at h

theorem runAny_failed (hsound : Sound goal current) (h : runAny current list = .failed) :
    ∀ job ∈ list, ¬ Succeeds goal job := by
  induction list with
  | nil => exact fun _ hmem => absurd hmem List.not_mem_nil
  | cons job rest ih =>
      rw [runAny] at h
      cases hjob : current job with
      | done => simp [hjob, Status.orElse] at h
      | failed =>
          rw [hjob] at h
          exact List.forall_mem_cons.mpr ⟨hsound.failed job hjob, ih h⟩
      | gaveUp => simp [hjob, Status.orElse] at h

theorem sound_status (fuel : Nat) : Sound goal (status goal fuel) := by
  induction fuel with
  | zero => exact ⟨fun _ h => Status.noConfusion h, fun _ h => Status.noConfusion h⟩
  | succ fuel ih =>
      constructor
      · intro job h
        rw [status] at h
        cases hgoal : goal job with
        | decided holds =>
            rw [hgoal] at h
            cases holds with
            | true => exact .decided hgoal
            | false => cases h
        | all jobs =>
            rw [hgoal] at h
            exact .all hgoal (runAll_done ih h)
        | any jobs =>
            rw [hgoal] at h
            exact (succeeds_any hgoal).mpr (runAny_done ih h)
      · intro job h
        rw [status] at h
        cases hgoal : goal job with
        | decided holds =>
            rw [hgoal] at h
            cases holds with
            | true => cases h
            | false => simp [succeeds_decided hgoal]
        | all jobs =>
            rw [hgoal] at h
            obtain ⟨called, hmem, hcalled⟩ := runAll_failed ih h
            exact fun hjob => hcalled ((succeeds_all hgoal).mp hjob called hmem)
        | any jobs =>
            rw [hgoal] at h
            intro hjob
            obtain ⟨called, hmem, hcalled⟩ := (succeeds_any hgoal).mp hjob
            exact runAny_failed ih h called hmem hcalled

/-! ## When a job ends -/

/-- All of the jobs are run to their end if each that is looked at is. -/
theorem runAll_ne_gaveUp (hsound : Sound goal current) :
    runAll current list ≠ .gaveUp ↔ ∀ front called back, list = front ++ called :: back →
      (∀ earlier ∈ front, Succeeds goal earlier) → current called ≠ .gaveUp := by
  induction list with
  | nil => simp [runAll]
  | cons job rest ih =>
      rw [runAll]
      constructor
      · intro h front called back heq hfront
        cases front with
        | nil =>
            cases heq
            intro hcalled
            rw [hcalled] at h
            exact h rfl
        | cons first others =>
            cases heq
            have hdone : current job = .done := by
              cases hjob : current job with
              | done => rfl
              | failed => exact absurd (hfront job List.mem_cons_self) (hsound.failed job hjob)
              | gaveUp => simp [hjob, Status.andThen] at h
            rw [hdone] at h
            exact ih.mp h others called back rfl fun earlier hmem => hfront earlier (List.mem_cons_of_mem _ hmem)
      · intro h
        cases hjob : current job with
        | done =>
            refine ih.mpr fun front called back heq hfront => ?_
            exact h (job :: front) called back (by rw [heq, List.cons_append])
              (List.forall_mem_cons.mpr ⟨hsound.done job hjob, hfront⟩)
        | failed => simp [Status.andThen]
        | gaveUp => exact absurd hjob (h [] job rest rfl fun _ hmem => absurd hmem List.not_mem_nil)

/-- One of the jobs is found, or none, if each that is looked at is run to its end. -/
theorem runAny_ne_gaveUp (hsound : Sound goal current) :
    runAny current list ≠ .gaveUp ↔ ∀ front called back, list = front ++ called :: back →
      (∀ earlier ∈ front, ¬ Succeeds goal earlier) → current called ≠ .gaveUp := by
  induction list with
  | nil => simp [runAny]
  | cons job rest ih =>
      rw [runAny]
      constructor
      · intro h front called back heq hfront
        cases front with
        | nil =>
            cases heq
            intro hcalled
            rw [hcalled] at h
            exact h rfl
        | cons first others =>
            cases heq
            have hfailed : current job = .failed := by
              cases hjob : current job with
              | done => exact absurd (hsound.done job hjob) (hfront job List.mem_cons_self)
              | failed => rfl
              | gaveUp => simp [hjob, Status.orElse] at h
            rw [hfailed] at h
            exact ih.mp h others called back rfl fun earlier hmem => hfront earlier (List.mem_cons_of_mem _ hmem)
      · intro h
        cases hjob : current job with
        | done => simp [Status.orElse]
        | failed =>
            refine ih.mpr fun front called back heq hfront => ?_
            exact h (job :: front) called back (by rw [heq, List.cons_append])
              (List.forall_mem_cons.mpr ⟨hsound.failed job hjob, hfront⟩)
        | gaveUp => exact absurd hjob (h [] job rest rfl fun _ hmem => absurd hmem List.not_mem_nil)

theorem not_finishes_zero : ¬ Finishes goal 0 job := fun h => h rfl

/-- A job finishes exactly when the jobs do that it comes to. -/
theorem finishes_succ : Finishes goal (fuel + 1) job ↔ ∀ called, Comes goal job called → Finishes goal fuel called := by
  rw [Finishes, status]
  cases hgoal : goal job with
  | decided holds =>
      have hnone : ∀ called, ¬ Comes goal job called := by
        rintro called (⟨_, _, h, -⟩ | ⟨_, _, h, -⟩) <;> cases hgoal.symm.trans h
      have hends : runGoal (status goal fuel) (.decided holds) ≠ .gaveUp := by
        cases holds <;> exact fun h => Status.noConfusion h
      exact iff_of_true hends fun called hcomes => absurd hcomes (hnone called)
  | all jobs =>
      rw [runGoal, runAll_ne_gaveUp (sound_status fuel)]
      constructor
      · rintro h called (⟨front, back, hjobs, hfront⟩ | ⟨_, _, hjobs, -⟩)
        · cases hgoal.symm.trans hjobs
          exact h front called back rfl hfront
        · cases hgoal.symm.trans hjobs
      · rintro h front called back rfl hfront
        exact h called (.all front back hgoal hfront)
  | any jobs =>
      rw [runGoal, runAny_ne_gaveUp (sound_status fuel)]
      constructor
      · rintro h called (⟨_, _, hjobs, -⟩ | ⟨front, back, hjobs, hfront⟩)
        · cases hgoal.symm.trans hjobs
        · cases hgoal.symm.trans hjobs
          exact h front called back rfl hfront
      · rintro h front called back rfl hfront
        exact h called (.any front back hgoal hfront)

theorem Finishes.succ (h : Finishes goal fuel job) : Finishes goal (fuel + 1) job := by
  induction fuel generalizing job with
  | zero => exact absurd h not_finishes_zero
  | succ fuel ih => exact finishes_succ.mpr fun called hcomes => ih (finishes_succ.mp h called hcomes)

theorem Finishes.mono {more : Nat} (hle : fuel ≤ more) (h : Finishes goal fuel job) : Finishes goal more job := by
  induction hle with
  | refl => exact h
  | step _ ih => exact ih.succ

theorem mem_parts_of_comes (h : Comes goal job called) : called ∈ (goal job).parts := by
  rcases h with ⟨front, back, h, -⟩ | ⟨front, back, h, -⟩ <;> rw [h, Goal.parts] <;>
    exact List.mem_append_right _ List.mem_cons_self

/-- Fuel for each of finitely many jobs is fuel for all. -/
theorem exists_fuel {P : J → Prop} (h : ∀ job ∈ list, P job → ∃ fuel, Finishes goal fuel job) :
    ∃ fuel, ∀ job ∈ list, P job → Finishes goal fuel job := by
  induction list with
  | nil => exact ⟨0, fun _ hmem => absurd hmem List.not_mem_nil⟩
  | cons job rest ih =>
      obtain ⟨fuel, hrest⟩ := ih fun other hmem => h other (List.mem_cons_of_mem _ hmem)
      by_cases hjob : P job
      · obtain ⟨fuel', hfuel'⟩ := h job List.mem_cons_self hjob
        refine ⟨max fuel fuel', List.forall_mem_cons.mpr ⟨fun _ => hfuel'.mono (by omega), fun other hmem hother => ?_⟩⟩
        exact (hrest other hmem hother).mono (by omega)
      · exact ⟨fuel, List.forall_mem_cons.mpr ⟨fun hjob' => absurd hjob' hjob, hrest⟩⟩

/-- A job ends for some fuel exactly when there is no endless chain of jobs that it comes to. -/
theorem finishes_iff : (∃ fuel, Finishes goal fuel job) ↔ Founded goal job := by
  constructor
  · rintro ⟨fuel, h⟩
    induction fuel generalizing job with
    | zero => exact absurd h not_finishes_zero
    | succ fuel ih => exact .intro job fun called hcomes => ih (finishes_succ.mp h called hcomes)
  · intro h
    induction h with
    | intro job _ ih =>
        obtain ⟨fuel, hfuel⟩ := exists_fuel fun called (_ : called ∈ (goal job).parts) hcomes => ih called hcomes
        exact ⟨fuel + 1, finishes_succ.mpr fun called hcomes => hfuel called (mem_parts_of_comes hcomes) hcomes⟩

/-- The jobs that a job comes to, sooner or later. -/
def Reaches (goal : J → Goal J) : J → J → Prop := Relation.ReflTransGen (Comes goal)

/-- Without an endless chain a job comes to finitely many jobs. -/
theorem Founded.finite_reaches (h : Founded goal job) : Set.Finite {next | Reaches goal job next} := by
  induction h with
  | intro job _ ih =>
      have hparts : Set.Finite {called | called ∈ (goal job).parts} := (goal job).parts.finite_toSet
      have hcalled : Set.Finite {called | Comes goal job called} := hparts.subset fun called => mem_parts_of_comes
      refine ((Set.finite_singleton job).union (hcalled.biUnion fun called hcomes => ih called hcomes)).subset ?_
      intro next hnext
      rcases Relation.ReflTransGen.cases_head hnext with rfl | ⟨called, hcomes, hrest⟩
      · exact .inl rfl
      · exact .inr (Set.mem_biUnion hcomes hrest)

/-- All of the jobs succeed if each does that is looked at. -/
theorem succeeds_of_comes (h : goal job = .all jobs) (hjobs : ∀ called, Comes goal job called → Succeeds goal called) :
    Succeeds goal job := by
  have hinitial : ∀ front back, jobs = front ++ back → ∀ called ∈ front, Succeeds goal called := by
    intro front
    induction front using List.reverseRecOn with
    | nil => exact fun _ _ _ hmem => absurd hmem List.not_mem_nil
    | append_singleton front last ih =>
        intro back heq
        have hfront := ih (last :: back) (by rw [heq, List.append_assoc, List.singleton_append])
        refine List.forall_mem_append.mpr ⟨hfront, List.forall_mem_singleton.mpr ?_⟩
        exact hjobs last (.all front back (by rw [h, heq, List.append_assoc, List.singleton_append]) hfront)
  exact .all h (hinitial jobs [] (List.append_nil jobs).symm)

end Search

end CantonSdk.Base
