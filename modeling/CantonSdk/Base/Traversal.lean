import Mathlib.Data.Finset.Card
import Mathlib.Logic.Relation

/-!
# Traversals that follow references

A job makes its steps one after the other: a check that passes or fails, or a call of another job, and the first step
that fails ends it. With fuel for calls nested to a given depth, a job ends or is given up. Jobs become smaller with
every call, but for references, which lead to entries of a table. A job ends for some fuel exactly when no reference
that it comes upon leads back to itself; a call is come upon when the steps before it pass.
-/

set_option linter.all false

namespace CantonSdk.Base

universe u

inductive Step (J : Type u)
  | check (passes : Bool)
  | call (job : J)

inductive Status
  | done
  | failed
  | gaveUp
  deriving DecidableEq

/-- Goes on if all went well so far. -/
def Status.andThen : Status → Status → Status
  | .done, next => next
  | status, _ => status

/-- Why a computation ends without a result. -/
inductive Stop (ε : Type)
  | failed (error : ε)
  | gaveUp
  deriving DecidableEq

namespace Traversal

variable {J : Type u}

/-- Makes the steps in order, each call with the given status. -/
def runSteps (status : J → Status) : List (Step J) → Status
  | [] => .done
  | .check true :: rest => runSteps status rest
  | .check false :: _ => .failed
  | .call job :: rest => (status job).andThen (runSteps status rest)

theorem runSteps_append (status : J → Status) (front back : List (Step J)) :
    runSteps status (front ++ back) = (runSteps status front).andThen (runSteps status back) := by
  induction front with
  | nil => rfl
  | cons first rest ih =>
      cases first with
      | check passes =>
          cases passes with
          | false => rfl
          | true => exact ih
      | call job =>
          rw [List.cons_append, runSteps, runSteps, ih]
          cases status job <;> rfl

variable (steps : J → List (Step J))

/-- The status of a job whose calls are followed to the given depth. -/
def status : Nat → J → Status
  | 0, _ => .gaveUp
  | fuel + 1, job => runSteps (status fuel) (steps job)

/-- All steps of the job pass, and so do all steps of the jobs that it calls. -/
inductive Passes : J → Prop
  | intro (job : J) (hchecks : ∀ passes, .check passes ∈ steps job → passes = true)
      (hcalls : ∀ called, .call called ∈ steps job → Passes called) : Passes job

/-- A step that passes. -/
def Passing : Step J → Prop
  | .check passes => passes = true
  | .call job => Passes steps job

/-- The job calls the other one, and comes to do so. -/
def Comes (job called : J) : Prop :=
  ∃ front back, steps job = front ++ .call called :: back ∧ ∀ step ∈ front, Passing steps step

def Finishes (fuel : Nat) (job : J) : Prop := status steps fuel job ≠ .gaveUp

variable {steps}

theorem passes_iff {job : J} : Passes steps job ↔ ∀ step ∈ steps job, Passing steps step := by
  constructor
  · rintro ⟨_, hchecks, hcalls⟩ step hstep
    cases step with
    | check passes => exact hchecks passes hstep
    | call called => exact hcalls called hstep
  · intro h
    exact ⟨job, fun passes hmem => h _ hmem, fun called hmem => h _ hmem⟩

/-- What the calls give is what passes for them. -/
def Sound (steps : J → List (Step J)) (status : J → Status) : Prop :=
  ∀ job, (status job = .done → Passes steps job) ∧ (status job = .failed → ¬ Passes steps job)

theorem runSteps_done {status : J → Status} (hsound : Sound steps status) {list : List (Step J)}
    (h : runSteps status list = .done) : ∀ step ∈ list, Passing steps step := by
  induction list with
  | nil => exact fun _ hmem => absurd hmem List.not_mem_nil
  | cons first rest ih =>
      cases first with
      | check passes =>
          cases passes with
          | false => cases h
          | true => exact List.forall_mem_cons.mpr ⟨rfl, ih h⟩
      | call job =>
          rw [runSteps] at h
          cases hjob : status job with
          | done =>
              rw [hjob] at h
              exact List.forall_mem_cons.mpr ⟨(hsound job).1 hjob, ih h⟩
          | failed => simp [hjob, Status.andThen] at h
          | gaveUp => simp [hjob, Status.andThen] at h

theorem runSteps_failed {status : J → Status} (hsound : Sound steps status) {list : List (Step J)}
    (h : runSteps status list = .failed) : ∃ step ∈ list, ¬ Passing steps step := by
  induction list with
  | nil => cases h
  | cons first rest ih =>
      cases first with
      | check passes =>
          cases passes with
          | false => exact ⟨_, List.mem_cons_self, Bool.false_ne_true⟩
          | true =>
              obtain ⟨step, hmem, hstep⟩ := ih h
              exact ⟨step, List.mem_cons_of_mem _ hmem, hstep⟩
      | call job =>
          rw [runSteps] at h
          cases hjob : status job with
          | done =>
              rw [hjob] at h
              obtain ⟨step, hmem, hstep⟩ := ih h
              exact ⟨step, List.mem_cons_of_mem _ hmem, hstep⟩
          | failed => exact ⟨_, List.mem_cons_self, (hsound job).2 hjob⟩
          | gaveUp => simp [hjob, Status.andThen] at h

theorem sound_status (fuel : Nat) : Sound steps (status steps fuel) := by
  induction fuel with
  | zero => exact fun _ => ⟨fun h => Status.noConfusion h, fun h => Status.noConfusion h⟩
  | succ fuel ih =>
      refine fun job => ⟨fun h => passes_iff.mpr (runSteps_done ih h), fun h hpasses => ?_⟩
      obtain ⟨step, hmem, hstep⟩ := runSteps_failed ih h
      exact hstep (passes_iff.mp hpasses step hmem)

/-- Steps are given up at a call that is come upon and does not finish, and at no other. -/
theorem runSteps_ne_gaveUp {status : J → Status} (hsound : Sound steps status) {list : List (Step J)} :
    runSteps status list ≠ .gaveUp ↔
      ∀ front called back, list = front ++ .call called :: back → (∀ step ∈ front, Passing steps step) →
        status called ≠ .gaveUp := by
  constructor
  · rintro hrun front called back rfl hfront hcalled
    rw [runSteps_append] at hrun
    cases hstatus : runSteps status front with
    | done =>
        rw [hstatus, runSteps, hcalled] at hrun
        exact hrun rfl
    | failed =>
        obtain ⟨step, hmem, hstep⟩ := runSteps_failed hsound hstatus
        exact hstep (hfront step hmem)
    | gaveUp =>
        rw [hstatus] at hrun
        exact hrun rfl
  · intro h
    induction list with
    | nil => exact fun hgaveUp => Status.noConfusion hgaveUp
    | cons first rest ih =>
        have hrest : (Passing steps first) → runSteps status rest ≠ .gaveUp := fun hfirst =>
          ih fun front called back heq hfront =>
            h (first :: front) called back (by rw [heq, List.cons_append]) (List.forall_mem_cons.mpr ⟨hfirst, hfront⟩)
        cases first with
        | check passes =>
            cases passes with
            | false => exact fun hgaveUp => Status.noConfusion hgaveUp
            | true => exact hrest rfl
        | call job =>
            rw [runSteps]
            cases hjob : status job with
            | done => exact hrest ((hsound job).1 hjob)
            | failed => exact fun hgaveUp => Status.noConfusion hgaveUp
            | gaveUp => exact absurd hjob (h [] job rest rfl fun _ hmem => absurd hmem List.not_mem_nil)

variable {job called : J} {fuel : Nat}

theorem not_finishes_zero : ¬ Finishes steps 0 job := fun h => h rfl

/-- A job finishes exactly when the calls do that it comes to. -/
theorem finishes_succ : Finishes steps (fuel + 1) job ↔ ∀ called, Comes steps job called → Finishes steps fuel called := by
  rw [Finishes, status, runSteps_ne_gaveUp (sound_status fuel)]
  constructor
  · rintro h called ⟨front, back, heq, hfront⟩
    exact h front called back heq hfront
  · intro h front called back heq hfront
    exact h called ⟨front, back, heq, hfront⟩

theorem Finishes.succ (h : Finishes steps fuel job) : Finishes steps (fuel + 1) job := by
  induction fuel generalizing job with
  | zero => exact absurd h not_finishes_zero
  | succ fuel ih => exact finishes_succ.mpr fun called hcomes => ih (finishes_succ.mp h called hcomes)

theorem Finishes.mono {more : Nat} (hle : fuel ≤ more) (h : Finishes steps fuel job) : Finishes steps more job := by
  induction hle with
  | refl => exact h
  | step _ ih => exact ih.succ

/-! ## References -/

section References

variable {ι : Type} (size : J → Nat) (reference : J → Option ι) (bound : Nat) (indices : Finset ι)

/-- How references and other jobs lead to the jobs that they call. -/
structure Follows (steps : J → List (Step J)) : Prop where
  smaller : ∀ job called, reference job = none → Comes steps job called → size called < size job
  bounded : ∀ job called, reference job ≠ none → Comes steps job called → size called ≤ bound
  indexed : ∀ job index, reference job = some index → index ∈ indices
  same : ∀ job other called, reference job ≠ none → reference job = reference other → Comes steps job called →
    Comes steps other called

/-- A reference that the job comes upon leads to one with the same index. -/
def LeadsBack (steps : J → List (Step J)) (job : J) : Prop :=
  ∃ met again, Relation.ReflTransGen (Comes steps) job met ∧ reference met ≠ none
    ∧ Relation.TransGen (Comes steps) met again ∧ reference again = reference met

variable {size reference bound indices}

theorem finishes_of_reflTransGen {met : J} (hmet : Relation.ReflTransGen (Comes steps) job met)
    (h : Finishes steps fuel job) : Finishes steps fuel met := by
  induction hmet with
  | refl => exact h
  | tail _ hcomes ih =>
      cases fuel with
      | zero => exact absurd h not_finishes_zero
      | succ fuel => exact (finishes_succ.mp ih _ hcomes).succ

/-- What is come upon later finishes with less fuel. -/
theorem finishes_of_transGen {met : J} (hmet : Relation.TransGen (Comes steps) job met)
    (h : Finishes steps (fuel + 1) job) : Finishes steps fuel met := by
  obtain ⟨first, hfirst, hrest⟩ := Relation.TransGen.head'_iff.mp hmet
  exact finishes_of_reflTransGen hrest (finishes_succ.mp h first hfirst)

theorem not_leadsBack_of_finishes (hfollows : Follows size reference bound indices steps)
    (h : Finishes steps fuel job) : ¬ LeadsBack reference steps job := by
  rintro ⟨met, again, hmet, hreference, hagain, hsame⟩
  have hfinishes := finishes_of_reflTransGen hmet h
  clear h hmet
  induction fuel with
  | zero => exact not_finishes_zero hfinishes
  | succ fuel ih =>
      have hless := finishes_of_transGen hagain hfinishes
      cases fuel with
      | zero => exact not_finishes_zero hless
      | succ fuel =>
          refine ih (finishes_succ.mpr fun called hcomes => ?_)
          exact finishes_succ.mp hless called (hfollows.same met again called hreference hsame.symm hcomes)

variable [DecidableEq ι]

/-- With the indices that may still come up, a bound for the fuel. -/
theorem finishes_of_not_leadsBack (hfollows : Follows size reference bound indices steps)
    (hback : ¬ LeadsBack reference steps job) (unseen : Finset ι)
    (hunseen : ∀ met index, Relation.ReflTransGen (Comes steps) job met → reference met = some index → index ∈ unseen) :
    Finishes steps (size job + unseen.card * (bound + 2) + 1) job := by
  induction hcard : unseen.card using Nat.strong_induction_on generalizing unseen job with
  | _ count ihcount =>
      induction hsize : size job using Nat.strong_induction_on generalizing job with
      | _ n ihsize =>
          rw [finishes_succ]
          intro called hcomes
          have hback' : ¬ LeadsBack reference steps called := by
            rintro ⟨met, again, hmet, hrest⟩
            exact hback ⟨met, again, .head hcomes hmet, hrest⟩
          cases hreference : reference job with
          | none =>
              have hless := hfollows.smaller job called hreference hcomes
              refine (ihsize (size called) (by omega) hback' (fun met index hmet => hunseen met index (.head hcomes hmet))
                rfl).mono (by omega)
          | some index =>
              have hindex := hunseen job index .refl hreference
              have hle := hfollows.bounded job called (by rw [hreference]; simp) hcomes
              have herase : (unseen.erase index).card + 1 = unseen.card := Finset.card_erase_add_one hindex
              have hfinishes := ihcount (unseen.erase index).card (by omega) hback' (unseen.erase index) (fun met other hmet hother => by
                refine Finset.mem_erase.mpr ⟨?_, hunseen met other (.head hcomes hmet) hother⟩
                rintro rfl
                refine hback ⟨job, met, .refl, by rw [hreference]; simp, ?_, hother.trans hreference.symm⟩
                exact Relation.TransGen.head' hcomes hmet) rfl
              refine hfinishes.mono ?_
              have hmul : unseen.card * (bound + 2) = (unseen.erase index).card * (bound + 2) + (bound + 2) := by
                rw [← herase, Nat.succ_mul]
              rw [← hcard]
              omega

/-- A job ends for some fuel exactly when no reference that it comes upon leads back to itself. -/
theorem finishes_iff (hfollows : Follows size reference bound indices steps) :
    (∃ fuel, Finishes steps fuel job) ↔ ¬ LeadsBack reference steps job := by
  constructor
  · rintro ⟨fuel, h⟩
    exact not_leadsBack_of_finishes hfollows h
  · intro h
    exact ⟨_, finishes_of_not_leadsBack hfollows h indices fun met index _ => hfollows.indexed met index⟩

end References

/-! ## Computations that make steps -/

section Computations

variable {ε α β : Type}

def statusOf : Except (Stop ε) α → Status
  | .ok _ => .done
  | .error (.failed _) => .failed
  | .error .gaveUp => .gaveUp

/-- The computation ends as the steps do. -/
def Makes (status : J → Status) (x : Except (Stop ε) α) (list : List (Step J)) : Prop :=
  statusOf x = runSteps status list

variable {status : J → Status} {x : Except (Stop ε) α} {f : α → Except (Stop ε) β} {list rest : List (Step J)}

theorem makes_ok {a : α} : Makes status (.ok a : Except (Stop ε) α) [] := rfl

theorem makes_call {job : J} (h : statusOf x = status job) : Makes status x [.call job] := by
  rw [Makes, h, runSteps]
  cases status job <;> rfl

theorem makes_check {passes : Bool} (hpasses : passes = true → statusOf x = .done)
    (hfails : passes = false → statusOf x = .failed) : Makes status x [.check passes] := by
  cases passes with
  | true => exact hpasses rfl
  | false => exact hfails rfl

theorem Makes.bind (hx : Makes status x list) (hf : ∀ a, x = .ok a → Makes status (f a) rest) :
    Makes status (x >>= f) (list ++ rest) := by
  rw [Makes, runSteps_append, ← hx]
  cases x with
  | ok a => exact hf a rfl
  | error stop => cases stop <;> rfl

/-- A last part that only puts the results together. -/
theorem Makes.map (hx : Makes status x list) (g : α → β) : Makes status (x >>= fun a => .ok (g a)) list := by
  rw [← List.append_nil list]
  exact hx.bind fun _ _ => makes_ok

theorem makes_mapM {ι : Type} {f : ι → Except (Stop ε) β} {stepsOf : ι → List (Step J)} {entries : List ι}
    (h : ∀ entry ∈ entries, Makes status (f entry) (stepsOf entry)) : Makes status (entries.mapM f) (entries.flatMap stepsOf) := by
  induction entries with
  | nil => exact makes_ok
  | cons entry rest ih =>
      rw [List.mapM_cons, List.flatMap_cons]
      refine (h entry List.mem_cons_self).bind fun _ _ => ?_
      exact (ih fun other hmem => h other (List.mem_cons_of_mem entry hmem)).map _

end Computations

end Traversal

end CantonSdk.Base
