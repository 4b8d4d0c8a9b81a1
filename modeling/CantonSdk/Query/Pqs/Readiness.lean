import CantonSdk.Base.Transition

/-!
# Readiness of a projected store

`PqsQueryClient` sends no statement before a check of the schema has succeeded. The calls of its methods share the promise of
that check, which `ready` keeps for as long as the check has not failed. Here each call is cut at its awaits, and the check,
the handler of its failure and the calls take their steps in any order.
-/

set_option linter.all false

namespace CantonSdk.Query.Pqs

open CantonSdk.Base

/-- What has become of a check. -/
inductive CheckPhase where
  | running
  | succeeded
  /-- The check has rejected, and the handler of `catch` has yet to run. -/
  | rejected
  /-- The handler has forgotten the promise and thrown the cause again. -/
  | failed
  deriving DecidableEq

/-- Where a call of a query method stands, with the check whose promise it has been given. -/
inductive CallPhase where
  /-- `await this.ready()`. -/
  | awaiting (check : Nat)
  /-- `executor.query` has been called. -/
  | sent (check : Nat)
  /-- The call has rejected; without a check where `checkReadyAsync` threw before there was a promise. -/
  | failed (check : Option Nat)

def CallPhase.check : CallPhase → Option Nat
  | awaiting check | sent check => some check
  | failed check => check

/-- A client with the checks and the calls of its life, by the order in which they began. -/
structure ReadyState where
  readyPromise : Option Nat
  checks : List CheckPhase
  calls : List CallPhase

inductive ReadyStep : ReadyState → ReadyState → Prop
  /-- `ready` starts a check and keeps its promise. -/
  | starts (s : ReadyState) (hnone : s.readyPromise = none) :
      ReadyStep s
        { readyPromise := some s.checks.length
          checks := s.checks ++ [.running]
          calls := s.calls ++ [.awaiting s.checks.length] }
  /-- `checkReadyAsync` throws, so that `ready` keeps nothing. -/
  | throws (s : ReadyState) (hnone : s.readyPromise = none) :
      ReadyStep s { s with calls := s.calls ++ [.failed none] }
  /-- `ready` returns the promise that it has kept. -/
  | joins (s : ReadyState) (check : Nat) (hkept : s.readyPromise = some check) :
      ReadyStep s { s with calls := s.calls ++ [.awaiting check] }
  | settles (s : ReadyState) (check : Nat) (resolved : Bool) (hrunning : s.checks[check]? = some .running) :
      ReadyStep s { s with checks := s.checks.set check (if resolved then .succeeded else .rejected) }
  /-- The handler sets `readyPromise` to undefined, whichever promise is kept there. -/
  | clears (s : ReadyState) (check : Nat) (hrejected : s.checks[check]? = some .rejected) :
      ReadyStep s { s with readyPromise := none, checks := s.checks.set check .failed }
  | sends (s : ReadyState) (call check : Nat) (hawaiting : s.calls[call]? = some (.awaiting check))
      (hsucceeded : s.checks[check]? = some .succeeded) :
      ReadyStep s { s with calls := s.calls.set call (.sent check) }
  | fails (s : ReadyState) (call check : Nat) (hawaiting : s.calls[call]? = some (.awaiting check))
      (hfailed : s.checks[check]? = some .failed) :
      ReadyStep s { s with calls := s.calls.set call (.failed (some check)) }

/-- Every interleaving of the steps of one client. -/
def readyProtocol : TransitionSystem ReadyState where
  init s := s = ⟨none, [], []⟩
  step := ReadyStep

/-! ### Entries of a list that has changed in one place -/

section Entries

variable {α : Type} {list : List α} {place other : Nat} {entry found : α}

theorem get_concat : (list ++ [entry])[other]? = some found ↔
    list[other]? = some found ∨ other = list.length ∧ entry = found := by
  rw [List.getElem?_append]
  split
  · next hlt =>
      constructor
      · exact Or.inl
      · intro h
        exact h.resolve_right fun hlast => Nat.ne_of_lt hlt hlast.1
  · next hge =>
      rw [List.getElem?_eq_none (Nat.not_lt.mp hge), List.getElem?_singleton]
      split
      · next hzero =>
          have hlast : other = list.length := by omega
          simp [hlast]
      · next hnonzero =>
          have hbeyond : other ≠ list.length := by omega
          simp [hbeyond]

theorem get_set_of_get {before : α} (hbefore : list[place]? = some before) :
    (list.set place entry)[other]? = some found ↔
      other = place ∧ entry = found ∨ other ≠ place ∧ list[other]? = some found := by
  have hlt : place < list.length := (List.getElem?_eq_some_iff.mp hbefore).1
  rw [List.getElem?_set]
  split
  · next heq =>
      subst heq
      simp [hlt]
  · next hne =>
      have hother : other ≠ place := Ne.symm hne
      simp [hother]

end Entries

theorem place_ne {checks : List CheckPhase} {changed check : Nat} {before phase : CheckPhase}
    (hbefore : checks[changed]? = some before) (hcheck : checks[check]? = some phase) (hphase : before ≠ phase) :
    check ≠ changed := by
  rintro rfl
  exact hphase (Option.some.inj (hbefore.symm.trans hcheck))

/-- A check whose phase is not the one that a step starts from is as it was. -/
theorem get_set_other {checks : List CheckPhase} {changed check : Nat} {before after phase : CheckPhase}
    (hbefore : checks[changed]? = some before) (hcheck : checks[check]? = some phase) (hphase : before ≠ phase) :
    (checks.set changed after)[check]? = some phase :=
  (get_set_of_get hbefore).mpr (Or.inr ⟨place_ne hbefore hcheck hphase, hcheck⟩)

/-! ### What holds between the steps -/

/-- The promise that is kept is that of the one check that has not failed, and statements are sent after it has succeeded. -/
structure Sound (s : ReadyState) : Prop where
  kept_iff : ∀ (check : Nat) (phase : CheckPhase), s.checks[check]? = some phase → (s.readyPromise = some check ↔ phase ≠ .failed)
  kept_known : ∀ check : Nat, s.readyPromise = some check → check < s.checks.length
  sent_checked : ∀ call check : Nat, s.calls[call]? = some (.sent check) → s.checks[check]? = some .succeeded

theorem Sound.init {s : ReadyState} (h : readyProtocol.init s) : Sound s := by
  obtain rfl : s = ⟨none, [], []⟩ := h
  refine ⟨fun check phase h => ?_, fun check h => ?_, fun call check h => ?_⟩
  · exact absurd h (by simp)
  · exact absurd h (by simp)
  · exact absurd h (by simp)

/-- The promise of a check that has not failed is kept. -/
theorem Sound.kept {s : ReadyState} (hs : Sound s) {check : Nat} {phase : CheckPhase}
    (hcheck : s.checks[check]? = some phase) (hphase : phase ≠ .failed) : s.readyPromise = some check :=
  (hs.kept_iff check phase hcheck).mpr hphase

theorem Sound.failed {s : ReadyState} (hs : Sound s) {check : Nat} {phase : CheckPhase}
    (hcheck : s.checks[check]? = some phase) (hforgotten : s.readyPromise ≠ some check) : phase = .failed :=
  Decidable.not_not.mp fun hphase => hforgotten (hs.kept hcheck hphase)

theorem Sound.only {s : ReadyState} (hs : Sound s) {first second : Nat} {phase phase' : CheckPhase}
    (hfirst : s.checks[first]? = some phase) (hphase : phase ≠ .failed)
    (hsecond : s.checks[second]? = some phase') (hphase' : phase' ≠ .failed) : first = second :=
  Option.some.inj ((hs.kept hfirst hphase).symm.trans (hs.kept hsecond hphase'))

/-- A call that has just begun has sent nothing. -/
theorem Sound.begin {s : ReadyState} (hs : Sound s) {phase : CallPhase} (hphase : ∀ check, phase ≠ .sent check) :
    ∀ call check : Nat, (s.calls ++ [phase])[call]? = some (.sent check) → s.checks[check]? = some .succeeded := by
  intro call check h
  rcases get_concat.mp h with h | ⟨_, h⟩
  · exact hs.sent_checked call check h
  · exact absurd h (hphase check)

/-- A check goes on while no statement can have been sent on its account. -/
theorem Sound.advance {s : ReadyState} (hs : Sound s) {changed : Nat} {before after : CheckPhase}
    (hbefore : s.checks[changed]? = some before) (hphase : before ≠ .succeeded) :
    ∀ call check : Nat, s.calls[call]? = some (.sent check) → (s.checks.set changed after)[check]? = some .succeeded := by
  intro call check h
  exact get_set_other hbefore (hs.sent_checked call check h) hphase

theorem Sound.step {s t : ReadyState} (hs : Sound s) (h : ReadyStep s t) : Sound t := by
  cases h with
  | starts hnone =>
      refine ⟨fun check phase hcheck => ?_, fun check hkept => ?_, fun call check hsent => ?_⟩
      · rcases get_concat.mp hcheck with hold | ⟨rfl, rfl⟩
        · have hfailed : phase = .failed := hs.failed hold (by simp [hnone])
          have hlt : check < s.checks.length := (List.getElem?_eq_some_iff.mp hold).1
          simp [hfailed, Nat.ne_of_gt hlt]
        · simp
      · obtain rfl := Option.some.inj hkept
        simp
      · exact get_concat.mpr (Or.inl (hs.begin (fun _ => by simp) call check hsent))
  | throws hnone => exact ⟨hs.kept_iff, hs.kept_known, hs.begin fun _ => by simp⟩
  | joins check hkept => exact ⟨hs.kept_iff, hs.kept_known, hs.begin fun _ => by simp⟩
  | settles changed resolved hrunning =>
      refine ⟨fun check phase hcheck => ?_, fun check hkept => ?_, hs.advance hrunning (by simp)⟩
      · rcases (get_set_of_get hrunning).mp hcheck with ⟨rfl, rfl⟩ | ⟨_, hold⟩
        · have hkept := hs.kept hrunning (by simp)
          cases resolved <;> simp [hkept]
        · exact hs.kept_iff check phase hold
      · rw [List.length_set]
        exact hs.kept_known check hkept
  | clears changed hrejected =>
      refine ⟨fun check phase hcheck => ?_, fun check hkept => absurd hkept (by simp), hs.advance hrejected (by simp)⟩
      rcases (get_set_of_get hrejected).mp hcheck with ⟨rfl, rfl⟩ | ⟨hother, hold⟩
      · simp
      · have hkept := hs.kept hrejected (by simp)
        have hfailed : phase = .failed := hs.failed hold (by simp [hkept, Ne.symm hother])
        simp [hfailed]
  | sends call check hawaiting hsucceeded =>
      refine ⟨hs.kept_iff, hs.kept_known, fun other found hsent => ?_⟩
      rcases (get_set_of_get hawaiting).mp hsent with ⟨_, heq⟩ | ⟨_, hold⟩
      · cases heq
        exact hsucceeded
      · exact hs.sent_checked other found hold
  | fails call check hawaiting hfailed =>
      refine ⟨hs.kept_iff, hs.kept_known, fun other found hsent => ?_⟩
      rcases (get_set_of_get hawaiting).mp hsent with ⟨_, heq⟩ | ⟨_, hold⟩
      · cases heq
      · exact hs.sent_checked other found hold

theorem sound_of_reachable {s : ReadyState} (hs : readyProtocol.Reachable s) : Sound s :=
  hs.invariant (fun _ => Sound.init) fun _ _ => Sound.step

/-! ### What holds between the ends of a run -/

theorem failed_of_step {s t : ReadyState} (h : ReadyStep s t) {check : Nat}
    (hfailed : s.checks[check]? = some .failed) : t.checks[check]? = some .failed := by
  cases h with
  | starts hnone => exact get_concat.mpr (Or.inl hfailed)
  | throws | joins | sends | fails => exact hfailed
  | settles changed resolved hrunning => exact get_set_other hrunning hfailed (by simp)
  | clears changed hrejected => exact get_set_other hrejected hfailed (by simp)

/-- Once a check has succeeded no check changes, and none begins. -/
theorem checks_of_step {s t : ReadyState} (hs : Sound s) (h : ReadyStep s t) {check : Nat}
    (hsucceeded : s.checks[check]? = some .succeeded) : t.checks = s.checks := by
  have hkept := hs.kept hsucceeded (by simp)
  cases h with
  | starts hnone => exact absurd (hkept.symm.trans hnone) (by simp)
  | throws | joins | sends | fails => rfl
  | settles changed resolved hrunning =>
      exact absurd (hs.only hsucceeded (by simp) hrunning (by simp)) (place_ne hrunning hsucceeded (by simp))
  | clears changed hrejected =>
      exact absurd (hs.only hsucceeded (by simp) hrejected (by simp)) (place_ne hrejected hsucceeded (by simp))

theorem checks_of_run {s t : ReadyState} (hs : Sound s) (hrun : readyProtocol.Run s t) {check : Nat}
    (hsucceeded : s.checks[check]? = some .succeeded) : t.checks = s.checks := by
  have h := hrun.preserves (fun before after (hbefore : Sound before ∧ before.checks = s.checks) hstep =>
    (⟨hbefore.1.step hstep, (checks_of_step hbefore.1 hstep (hbefore.2 ▸ hsucceeded)).trans hbefore.2⟩ :
      Sound after ∧ after.checks = s.checks)) ⟨hs, rfl⟩
  exact h.2

/-- The check has failed, and no call from this one on has been given its promise. -/
structure Forgotten (check begun : Nat) (s : ReadyState) : Prop where
  sound : Sound s
  failed : s.checks[check]? = some .failed
  others : ∀ (call : Nat) (phase : CallPhase), begun ≤ call → s.calls[call]? = some phase → phase.check ≠ some check

theorem Forgotten.begin {check begun : Nat} {s : ReadyState} (hs : Forgotten check begun s) {phase : CallPhase}
    (hphase : phase.check ≠ some check) : ∀ (call : Nat) (found : CallPhase), begun ≤ call →
      (s.calls ++ [phase])[call]? = some found → found.check ≠ some check := by
  intro call found hcall h
  rcases get_concat.mp h with h | ⟨_, rfl⟩
  · exact hs.others call found hcall h
  · exact hphase

/-- A call goes on with the check that it has. -/
theorem Forgotten.advance {check begun : Nat} {s : ReadyState} (hs : Forgotten check begun s) {changed : Nat}
    {before after : CallPhase} (hbefore : s.calls[changed]? = some before) (hsame : after.check = before.check) :
    ∀ (call : Nat) (found : CallPhase), begun ≤ call →
      (s.calls.set changed after)[call]? = some found → found.check ≠ some check := by
  intro call found hcall h
  rcases (get_set_of_get hbefore).mp h with ⟨rfl, rfl⟩ | ⟨_, h⟩
  · rw [hsame]
    exact hs.others call before hcall hbefore
  · exact hs.others call found hcall h

theorem Forgotten.step {check begun : Nat} {s t : ReadyState} (hs : Forgotten check begun s) (h : ReadyStep s t) :
    Forgotten check begun t := by
  refine ⟨hs.sound.step h, failed_of_step h hs.failed, ?_⟩
  cases h with
  | starts hnone =>
      have hlt : check < s.checks.length := (List.getElem?_eq_some_iff.mp hs.failed).1
      exact hs.begin (by simp [CallPhase.check, Nat.ne_of_gt hlt])
  | throws hnone => exact hs.begin (by simp [CallPhase.check])
  | joins kept hkept =>
      have hforgotten : s.readyPromise ≠ some check := fun h => (hs.sound.kept_iff check _ hs.failed).mp h rfl
      exact hs.begin (by rwa [hkept] at hforgotten)
  | settles | clears => exact hs.others
  | sends call awaited hawaiting hsucceeded => exact hs.advance hawaiting rfl
  | fails call awaited hawaiting hfailed => exact hs.advance hawaiting rfl

/-- What `ready` is for, from one state of a client to any later one. -/
structure Revalidates (s t : ReadyState) : Prop where
  /-- No two checks go on or have succeeded. -/
  single : ∀ (first second : Nat) (phase phase' : CheckPhase), t.checks[first]? = some phase → phase ≠ .failed →
    t.checks[second]? = some phase' → phase' ≠ .failed → first = second
  /-- A statement is sent after the check of its call has succeeded. -/
  checked : ∀ call check : Nat, t.calls[call]? = some (.sent check) → t.checks[check]? = some .succeeded
  /-- After a success there are no more checks. -/
  once : ∀ check : Nat, s.checks[check]? = some .succeeded → t.checks = s.checks
  /-- A failure is no failure of the calls to come. -/
  forgotten : ∀ check : Nat, s.checks[check]? = some .failed → ∀ (call : Nat) (phase : CallPhase),
    s.calls.length ≤ call → t.calls[call]? = some phase → phase.check ≠ some check
  /-- The next call starts a check exactly where every check has failed. -/
  renewed : t.readyPromise = none ↔ ∀ phase ∈ t.checks, phase = .failed

theorem Sound.renewed {s : ReadyState} (hs : Sound s) :
    s.readyPromise = none ↔ ∀ phase ∈ s.checks, phase = .failed := by
  constructor
  · intro hnone phase hmem
    obtain ⟨check, hcheck⟩ := List.getElem?_of_mem hmem
    exact hs.failed hcheck (by simp [hnone])
  · intro hall
    rw [Option.eq_none_iff_forall_ne_some]
    intro check hkept
    have hlt := hs.kept_known check hkept
    have hcheck := List.getElem?_eq_getElem hlt
    exact (hs.kept_iff check _ hcheck).mp hkept (hall _ (List.getElem_mem hlt))

/-- However the calls and the checks of a client interleave. -/
theorem ready_revalidates {s t : ReadyState} (hs : readyProtocol.Reachable s) (hrun : readyProtocol.Run s t) :
    Revalidates s t := by
  have hsound := sound_of_reachable hs
  have hafter := sound_of_reachable (hs.run hrun)
  refine ⟨fun first second phase phase' hfirst hphase hsecond hphase' => ?_, hafter.sent_checked,
    fun check hsucceeded => checks_of_run hsound hrun hsucceeded, fun check hfailed => ?_, hafter.renewed⟩
  · exact hafter.only hfirst hphase hsecond hphase'
  · have hbegun : Forgotten check s.calls.length s := by
      refine ⟨hsound, hfailed, fun call phase hcall h => ?_⟩
      rw [List.getElem?_eq_none hcall] at h
      cases h
    exact (hrun.preserves (fun _ _ => Forgotten.step) hbegun).others

/-- The first check fails while a call awaits it, and the next call has the store checked again. -/
theorem ready_revalidates_retry :
    Revalidates ⟨none, [.failed], [.awaiting 0]⟩ ⟨some 1, [.failed, .succeeded], [.awaiting 0, .sent 1]⟩ := by
  have hfirst : readyProtocol.Reachable ⟨none, [.failed], [.awaiting 0]⟩ :=
    ((TransitionSystem.Reachable.of_init rfl).step (ReadyStep.starts ⟨none, [], []⟩ rfl)).step
        (ReadyStep.settles ⟨some 0, [.running], [.awaiting 0]⟩ 0 false rfl)
      |>.step (ReadyStep.clears ⟨some 0, [.rejected], [.awaiting 0]⟩ 0 rfl)
  have hsecond : readyProtocol.Run ⟨none, [.failed], [.awaiting 0]⟩
      ⟨some 1, [.failed, .succeeded], [.awaiting 0, .sent 1]⟩ :=
    ((TransitionSystem.Run.refl _).tail (ReadyStep.starts ⟨none, [.failed], [.awaiting 0]⟩ rfl)).tail
        (ReadyStep.settles ⟨some 1, [.failed, .running], [.awaiting 0, .awaiting 1]⟩ 1 true rfl)
      |>.tail (ReadyStep.sends ⟨some 1, [.failed, .succeeded], [.awaiting 0, .awaiting 1]⟩ 1 1 rfl rfl)
  exact ready_revalidates hfirst hsecond

end CantonSdk.Query.Pqs
