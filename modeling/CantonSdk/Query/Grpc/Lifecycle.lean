import CantonSdk.Query.Grpc.Reconciliation

/-!
# Contract lifecycles

What the fold over a history knows after any prefix of it: which contracts there are, which of them a
consuming exercise has archived, and one row for each exercise. The active-contract set is laid over
that state. A contract it brings in is taken to be active, whatever exercises on it the history holds;
so lifecycles are right exactly when the history consumes no such contract.
-/

set_option linter.all false

namespace CantonSdk.Query.Grpc

open CantonSdk.Base CantonSdk.Query.Canonical

variable {locale : Collation}

namespace PendingEvent

def Creates (item : PendingEvent) (id : String) : Prop :=
  ∃ event, item.event = .created event ∧ event.contractId = id

def Exercises (item : PendingEvent) (id : String) : Prop :=
  ∃ event, item.event = .exercised event ∧ event.contractId = id

def Consumes (item : PendingEvent) (id : String) : Prop :=
  ∃ event, item.event = .exercised event ∧ event.contractId = id ∧ event.consuming = true

theorem Consumes.exercises {item : PendingEvent} {id : String} (h : item.Consumes id) :
    item.Exercises id := by
  obtain ⟨event, hevent, hid, _⟩ := h
  exact ⟨event, hevent, hid⟩

theorem Creates.not_exercises {item : PendingEvent} {id other : String} (h : item.Creates id) :
    ¬ item.Exercises other := by
  intro hexercises
  obtain ⟨_, hcreated, _⟩ := h
  obtain ⟨_, hexercised, _⟩ := hexercises
  rw [hcreated] at hexercised
  cases hexercised

end PendingEvent

/-- The archive columns say that this exercise archived the contract. -/
structure ContractRow.ArchivedBy (row : ContractRow) (item : PendingEvent) : Prop where
  offset_eq : row.archivedEventOffset = some item.transaction.offset
  time_eq : ∃ archivedAt, row.archivedAt = some archivedAt ∧
    requiredTimestamp item.transaction.effectiveAt "transaction effective time" = .ok archivedAt

/-- The archive columns of a contract that is active. -/
structure ContractRow.Open (row : ContractRow) : Prop where
  active_eq : row.active = true
  offset_eq : row.archivedEventOffset = none
  time_eq : row.archivedAt = none

/-- A row that stands for this exercise. -/
structure IsExerciseRow (item : PendingEvent) (row : ExerciseRow) : Prop where
  exercises : item.Exercises row.contractId
  exercisedAtIx_eq : row.exercisedAtIx = some item.transaction.offset
  exerciseEventPk_eq : ∃ pk, publicKey (eventId item.event) = .ok pk ∧ row.exerciseEventPk = some pk

def isExercise (item : PendingEvent) : Bool :=
  match item.event with
  | .created _ => false
  | .exercised _ => true

/-- The row of a contract after these events: open, or archived by the one event that consumes it. -/
def ContractRow.After (row : ContractRow) (done : List PendingEvent) (id : String) : Prop :=
  (row.Open ∧ ∀ item ∈ done, ¬ item.Consumes id) ∨
  (row.active = false ∧ ∃ item ∈ done, item.Consumes id ∧ row.ArchivedBy item ∧
    ∀ other ∈ done, other.Consumes id → other = item)

/-- What the fold has built from these events. -/
structure Folded (done : List PendingEvent) (s : MapperState) : Prop where
  keyed : s.Keyed
  created_iff : ∀ id, (∃ row, s.contracts.get id = some row) ↔ ∃ item ∈ done, item.Creates id
  lifecycle : ∀ {id row}, s.contracts.get id = some row → row.After done id
  exercises : List.Forall₂ IsExerciseRow (done.filter isExercise) s.exerciseRows

theorem Folded.empty : Folded [] .empty where
  keyed := .empty
  created_iff id := by simp [MapperState.empty]
  lifecycle h := by cases h
  exercises := .nil

theorem mapExercise_ok {transaction : TransactionHeader} {event : ExercisedEvent}
    {target : Option ContractRow} {row : ExerciseRow}
    (h : mapExercise locale transaction event target = .ok row) :
    IsExerciseRow ⟨transaction, .exercised event⟩ row := by
  unfold mapExercise at h
  obtain ⟨_, _, h⟩ := bind_eq_ok.mp h
  obtain ⟨_, _, h⟩ := bind_eq_ok.mp h
  obtain ⟨_, _, h⟩ := bind_eq_ok.mp h
  obtain ⟨_, _, h⟩ := bind_eq_ok.mp h
  obtain ⟨exerciseEventPk, hpk, h⟩ := bind_eq_ok.mp h
  cases hargument : event.choiceArgument with
  | none =>
      rw [hargument] at h
      cases h
  | some choiceArgument =>
      simp only [hargument] at h
      obtain ⟨_, _, h⟩ := bind_eq_ok.mp h
      obtain ⟨_, _, h⟩ := bind_eq_ok.mp h
      obtain ⟨_, _, h⟩ := bind_eq_ok.mp h
      obtain ⟨_, _, h⟩ := bind_eq_ok.mp h
      obtain ⟨_, _, h⟩ := bind_eq_ok.mp h
      obtain ⟨_, _, h⟩ := bind_eq_ok.mp h
      obtain rfl := Except.ok.inj h
      exact ⟨⟨event, rfl, rfl⟩, rfl, exerciseEventPk, hpk, rfl⟩

/-- An event that does not consume the contract leaves its row as it was. -/
theorem ContractRow.After.append {row : ContractRow} {done : List PendingEvent} {id : String}
    (h : row.After done id) {item : PendingEvent} (hitem : ¬ item.Consumes id) :
    row.After (done ++ [item]) id := by
  have hold : ∀ other ∈ done ++ [item], other.Consumes id → other ∈ done := by
    intro other hother hconsumes
    rcases List.mem_append.mp hother with hother | hother
    · exact hother
    · obtain rfl := List.mem_singleton.mp hother
      exact absurd hconsumes hitem
  rcases h with ⟨hopen, hnone⟩ | ⟨hactive, archiver, hmem, hconsumes, harchived, hunique⟩
  · exact Or.inl ⟨hopen, fun other hother hconsumes => hnone other (hold other hother hconsumes) hconsumes⟩
  · exact Or.inr ⟨hactive, archiver, List.mem_append_left _ hmem, hconsumes, harchived,
      fun other hother hother' => hunique other (hold other hother hother') hother'⟩

section After

variable {row : ContractRow} {done : List PendingEvent} {id : String}

theorem ContractRow.After.inactive_iff (h : row.After done id) :
    row.active = false ↔ ∃ item ∈ done, item.Consumes id := by
  rcases h with ⟨hopen, hnone⟩ | ⟨hinactive, archiver, hmem, hconsumes, _⟩
  · constructor
    · intro hinactive
      rw [hopen.active_eq] at hinactive
      cases hinactive
    · intro hconsumed
      obtain ⟨item, hmem, hconsumes⟩ := hconsumed
      exact absurd hconsumes (hnone item hmem)
  · exact ⟨fun _ => ⟨archiver, hmem, hconsumes⟩, fun _ => hinactive⟩

theorem ContractRow.After.archivedBy (h : row.After done id) {item : PendingEvent} (hmem : item ∈ done)
    (hconsumes : item.Consumes id) : row.ArchivedBy item := by
  rcases h with ⟨_, hnone⟩ | ⟨_, archiver, _, _, harchived, hunique⟩
  · exact absurd hconsumes (hnone item hmem)
  · rw [hunique item hmem hconsumes]
    exact harchived

/-- The three archive columns agree. -/
theorem ContractRow.After.columns (h : row.After done id) :
    (row.active = false ↔ row.archivedEventOffset ≠ none) ∧
      (row.active = false ↔ row.archivedAt ≠ none) := by
  rcases h with ⟨hopen, _⟩ | ⟨hinactive, _, _, _, harchived, _⟩
  · simp [hopen.active_eq, hopen.offset_eq, hopen.time_eq]
  · obtain ⟨archivedAt, htime, _⟩ := harchived.time_eq
    simp [hinactive, harchived.offset_eq, htime]

end After

section Steps

variable {done : List PendingEvent} {s t : MapperState} {item : PendingEvent}

/-- A create adds an open contract; no earlier event has consumed it. -/
theorem Folded.create (hs : Folded done s) {event : CreatedEvent}
    {creation : GrpcQueryCreationIdentity} (hevent : item.event = .created event)
    (hcreation : creationDescriptor locale event item.transaction.offset = .ok creation)
    (hearly : ∀ earlier ∈ done, ¬ earlier.Consumes event.contractId) :
    Folded (done ++ [item]) { s with
      contracts := s.contracts.set event.contractId (createdRow creation)
      creations := s.creations.set event.contractId creation } := by
  obtain ⟨hid, _, _, _, hplain, _⟩ := creationDescriptor_ok hcreation
  have hcreates : item.Creates event.contractId := ⟨event, hevent, rfl⟩
  have hconsumes : ∀ id, ¬ item.Consumes id := fun id h => hcreates.not_exercises h.exercises
  refine ⟨hs.keyed.setBoth (createdRow_contractId.trans hid) hid hplain _, ?_, ?_, ?_⟩
  · intro id
    rw [KeyedMap.get_set]
    split
    · rename_i hkey
      constructor
      · exact fun _ => ⟨item, List.mem_append_right _ (List.mem_singleton.mpr rfl), hkey ▸ hcreates⟩
      · exact fun _ => ⟨_, rfl⟩
    · rename_i hkey
      rw [hs.created_iff id]
      constructor
      · intro h
        obtain ⟨other, hother, hcreated⟩ := h
        exact ⟨other, List.mem_append_left _ hother, hcreated⟩
      · intro h
        obtain ⟨other, hother, hcreated⟩ := h
        rcases List.mem_append.mp hother with hother | hother
        · exact ⟨other, hother, hcreated⟩
        · obtain rfl := List.mem_singleton.mp hother
          obtain ⟨created, hsame, rfl⟩ := hcreated
          rw [hevent] at hsame
          exact absurd (congrArg CreatedEvent.contractId (LedgerEvent.created.inj hsame)).symm hkey
  · intro id row hrow
    rw [KeyedMap.get_set] at hrow
    split at hrow
    · rename_i hkey
      obtain rfl := Option.some.inj hrow
      refine Or.inl ⟨⟨rfl, rfl, rfl⟩, fun other hother hconsumed => ?_⟩
      rcases List.mem_append.mp hother with hother | hother
      · exact hearly other hother (hkey ▸ hconsumed)
      · obtain rfl := List.mem_singleton.mp hother
        exact hconsumes _ hconsumed
    · exact (hs.lifecycle hrow).append (hconsumes id)
  · have hkind : isExercise item = false := by simp [isExercise, hevent]
    rw [List.filter_append, List.filter_cons_of_neg (by simp [hkind]), List.filter_nil,
      List.append_nil]
    exact hs.exercises

/-- An exercise adds its row, and archives the contract if it consumes it. -/
theorem Folded.exercise (hs : Folded done s) {event : ExercisedEvent} {row : ExerciseRow}
    (hevent : item.event = .exercised event)
    (hrow : mapExercise locale item.transaction event (s.contracts.get event.contractId) = .ok row)
    {contracts : KeyedMap String ContractRow}
    (hkeyed : ({ s with contracts := contracts, exerciseRows := s.exerciseRows ++ [row] } :
      MapperState).Keyed)
    (hkeys : ∀ id, (∃ found, contracts.get id = some found) ↔ ∃ found, s.contracts.get id = some found)
    (hlifecycle : ∀ {id found}, contracts.get id = some found → found.After (done ++ [item]) id) :
    Folded (done ++ [item]) { s with
      contracts := contracts
      exerciseRows := s.exerciseRows ++ [row] } := by
  refine ⟨hkeyed, ?_, hlifecycle, ?_⟩
  · intro id
    rw [hkeys id, hs.created_iff id]
    constructor
    · intro h
      obtain ⟨other, hother, hcreated⟩ := h
      exact ⟨other, List.mem_append_left _ hother, hcreated⟩
    · intro h
      obtain ⟨other, hother, hcreated⟩ := h
      rcases List.mem_append.mp hother with hother | hother
      · exact ⟨other, hother, hcreated⟩
      · obtain rfl := List.mem_singleton.mp hother
        exact absurd ⟨event, hevent, rfl⟩ hcreated.not_exercises
  · have hkind : isExercise item = true := by simp [isExercise, hevent]
    have hitem : (⟨item.transaction, .exercised event⟩ : PendingEvent) = item := by rw [← hevent]
    rw [List.filter_append, List.filter_cons_of_pos hkind, List.filter_nil]
    exact List.rel_append hs.exercises (.cons (hitem ▸ mapExercise_ok hrow) .nil)

/-- One event of the history. -/
theorem Folded.step (hs : Folded done s) (h : applyPending locale s item = .ok t)
    (hearly : ∀ earlier ∈ done, ∀ id, item.Creates id → ¬ earlier.Exercises id) :
    Folded (done ++ [item]) t := by
  have hkeyed := applyPending_keyed hs.keyed h
  rcases applyPending_cases h with ⟨event, creation, hevent, hcreation, _, rfl⟩ |
    ⟨event, row, hevent, hactive, hrow, hrest⟩
  · exact hs.create hevent hcreation fun earlier hmem hconsumes =>
      hearly earlier hmem _ ⟨event, hevent, rfl⟩ hconsumes.exercises
  · have hconsumes : ∀ id, item.Consumes id → event.contractId = id ∧ event.consuming = true := by
      intro id hconsumed
      obtain ⟨other, hother, hid, hconsuming⟩ := hconsumed
      rw [hevent] at hother
      obtain rfl := LedgerEvent.exercised.inj hother
      exact ⟨hid, hconsuming⟩
    rcases hrest with ⟨hkept, rfl⟩ | ⟨target, archivedAt, htarget, hconsuming, harchived, rfl⟩
    · refine hs.exercise hevent hrow hkeyed (fun _ => Iff.rfl) ?_
      intro id found hfound
      apply (hs.lifecycle hfound).append
      intro hconsumed
      obtain ⟨rfl, hconsuming⟩ := hconsumes id hconsumed
      rcases hkept with hnone | hfalse
      · rw [hnone] at hfound
        cases hfound
      · rw [hfalse] at hconsuming
        cases hconsuming
    · have hid := (hs.keyed.contract_key htarget).1
      refine hs.exercise hevent hrow hkeyed ?_ ?_
      · intro id
        rw [KeyedMap.get_set, hid]
        split
        · rename_i hkey
          simp [hkey, htarget]
        · exact Iff.rfl
      · intro id found hfound
        rw [KeyedMap.get_set, hid] at hfound
        split at hfound
        · rename_i hkey
          obtain rfl := Option.some.inj hfound
          -- The target was open until now, so nothing before this event has consumed it.
          have hbefore : ∀ other ∈ done, ¬ other.Consumes id := by
            rcases hs.lifecycle htarget with ⟨_, hnone⟩ | ⟨hinactive, _⟩
            · rwa [hkey]
            · rw [hactive target htarget] at hinactive
              cases hinactive
          refine Or.inr ⟨rfl, item, List.mem_append_right _ (List.mem_singleton.mpr rfl),
            ⟨event, hevent, hkey.symm, hconsuming⟩, ⟨rfl, archivedAt, rfl, harchived⟩, ?_⟩
          intro other hother hconsumed
          rcases List.mem_append.mp hother with hother | hother
          · exact absurd hconsumed (hbefore other hother)
          · exact List.mem_singleton.mp hother
        · rename_i hkey
          exact (hs.lifecycle hfound).append fun hconsumed => hkey (hconsumes id hconsumed).1.symm

end Steps

/-- A run of the fold in which no create comes after an exercise on its contract. -/
theorem Folded.run {done items : List PendingEvent} {s t : MapperState} (hs : Folded done s)
    (h : items.foldlM (applyPending locale) s = .ok t)
    (hearly : ∀ before item after, done ++ items = before ++ item :: after →
      ∀ earlier ∈ before, ∀ id, item.Creates id → ¬ earlier.Exercises id) :
    Folded (done ++ items) t := by
  induction items generalizing done s with
  | nil =>
      obtain rfl := Except.ok.inj h
      rwa [List.append_nil]
  | cons item rest ih =>
      rw [List.foldlM_cons] at h
      obtain ⟨middle, hmiddle, hrest⟩ := bind_eq_ok.mp h
      have hnext := hs.step hmiddle (hearly done item rest rfl)
      rw [List.append_cons] at hearly ⊢
      exact ih hnext hrest hearly

/-! ### The statement -/

/-- No exercise comes before the create of its contract. -/
def NoEarlyExercise (source : List Transaction) : Prop :=
  ∀ exercise ∈ historyEvents source, ∀ create ∈ historyEvents source, ∀ id,
    exercise.Exercises id → create.Creates id → comparePending exercise create ≠ .lt

def CreatedIn (source : List Transaction) (id : String) : Prop :=
  ∃ item ∈ historyEvents source, item.Creates id

def ConsumedIn (source : List Transaction) (id : String) : Prop :=
  ∃ item ∈ historyEvents source, item.Consumes id

/-- The active-contract input holds the contract. -/
def ActiveIn (activeContracts : List GetActiveContractsResponse) (id : String) : Prop :=
  ∃ response ∈ activeContracts, ∃ entry, toActiveEntry response = some entry ∧
    entry.event.contractId = id

/-- A fragment that tells the lifecycle of every contract of its input. -/
structure Lifecycle (source : List Transaction) (activeContracts : List GetActiveContractsResponse)
    (fragment : GrpcQueryRelationFragment) : Prop where
  contracts_nodup : (fragment.contracts.map ContractRow.contractId).Nodup
  contracts_iff : ∀ id, id ∈ fragment.contracts.map ContractRow.contractId ↔
    CreatedIn source id ∨ ActiveIn activeContracts id
  creations_nodup : (fragment.creationIdentities.map GrpcQueryCreationIdentity.contractId).Nodup
  creations_iff : ∀ id, id ∈ fragment.creationIdentities.map GrpcQueryCreationIdentity.contractId ↔
    CreatedIn source id ∨ ActiveIn activeContracts id
  inactive_iff : ∀ row ∈ fragment.contracts, row.active = false ↔ ConsumedIn source row.contractId
  archived_by : ∀ row ∈ fragment.contracts, ∀ item ∈ historyEvents source,
    item.Consumes row.contractId → row.ArchivedBy item
  offset_iff : ∀ row ∈ fragment.contracts, row.active = false ↔ row.archivedEventOffset ≠ none
  time_iff : ∀ row ∈ fragment.contracts, row.active = false ↔ row.archivedAt ≠ none
  history_once : ∃ ordered : List PendingEvent, ordered.Perm (historyEvents source) ∧
    (ordered.Pairwise fun a b => comparePending a b = .lt) ∧
    List.Forall₂ (fun item row => mapEvent item = .ok row) ordered fragment.events ∧
    ∃ rows, rows.Perm fragment.exercises ∧
      List.Forall₂ IsExerciseRow (ordered.filter isExercise) rows

/-- The active-contract input holds no contract that the history consumes without having created it. -/
def NoOrphanConsumed (source : List Transaction) (activeContracts : List GetActiveContractsResponse) :
    Prop :=
  ∀ id, ActiveIn activeContracts id → ¬ CreatedIn source id → ¬ ConsumedIn source id

/-! ### The rows of a run -/

section Run

variable {source : List Transaction} {activeContracts : List GetActiveContractsResponse}
  {fragment : GrpcQueryRelationFragment}

theorem MapperRun.pending_perm (run : MapperRun locale source activeContracts fragment) :
    run.input.pending.Perm (historyEvents source) :=
  InputValid.pending_perm run.input_read

theorem MapperRun.folded (run : MapperRun locale source activeContracts fragment)
    (hearly : NoEarlyExercise source) : Folded run.input.pending run.history := by
  have hperm := run.pending_perm
  have hincreasing := pending_increasing run.input_read
  apply Folded.empty.run run.history_folded
  intro before item after hsplit earlier hmem id hcreates hexercises
  rw [List.nil_append] at hsplit
  have hearlier : earlier ∈ run.input.pending := by
    rw [hsplit]
    exact List.mem_append_left _ hmem
  have hitem : item ∈ run.input.pending := by
    rw [hsplit]
    exact List.mem_append_right _ List.mem_cons_self
  rw [hsplit, List.pairwise_append] at hincreasing
  exact hearly earlier (hperm.mem_iff.mp hearlier) item (hperm.mem_iff.mp hitem) id hexercises hcreates
    (hincreasing.2.2 earlier hmem item List.mem_cons_self)

theorem MapperRun.activations_iff (run : MapperRun locale source activeContracts fragment)
    (id : String) : activations run.input.activeEntries id ≠ [] ↔ ActiveIn activeContracts id := by
  have hmapped := (readInput_ok.mp run.input_read).1.entries_mapped
  rw [mapM_eq_ok] at hmapped
  constructor
  · intro h
    obtain ⟨entry, hentry⟩ := List.exists_mem_of_ne_nil _ h
    obtain ⟨hmem, hid⟩ := mem_activations.mp hentry
    obtain ⟨response, hresponse, hok⟩ := exists_left_of_mem hmapped hmem
    exact ⟨response, hresponse, entry, (activeContractEntry_ok hok).1, hid⟩
  · intro h
    obtain ⟨response, hresponse, entry, hentry, hid⟩ := h
    obtain ⟨mapped, hmem, hok⟩ := exists_right_of_mem hmapped hresponse
    obtain rfl : mapped = entry := Option.some.inj ((activeContractEntry_ok hok).1.symm.trans hentry)
    exact List.ne_nil_of_mem (mem_activations.mpr ⟨hmem, hid⟩)

/-- The row of a contract that the history created is the one the history left. -/
theorem MapperRun.created_after (run : MapperRun locale source activeContracts fragment)
    (hearly : NoEarlyExercise source) {id : String} {row : ContractRow}
    (hrow : run.reconciled.contracts.get id = some row) (hcreated : CreatedIn source id) :
    row.After run.input.pending id := by
  have hfolded := run.folded hearly
  have hspec := run.reconciled_spec
  obtain ⟨item, hitem, hcreates⟩ := hcreated
  obtain ⟨before, hbefore⟩ :=
    (hfolded.created_iff id).mpr ⟨item, run.pending_perm.mem_iff.mpr hitem, hcreates⟩
  by_cases hnone : activations run.input.activeEntries id = []
  · rw [(hspec.untouched id hnone).1] at hrow
    exact hfolded.lifecycle hrow
  · obtain ⟨found, creation, hresult, hfound, _⟩ := hspec.reconciled id hnone
    obtain rfl := Option.some.inj (hfound.symm.trans hrow)
    obtain ⟨descriptors, _, hresult⟩ := bind_eq_ok.mp hresult
    obtain ⟨witnesses, hwitnesses, hresult⟩ := bind_eq_ok.mp hresult
    obtain ⟨historical, hhistorical⟩ := (run.keyed.same_keys id).mp ⟨before, hbefore⟩
    rw [hbefore, hhistorical] at hresult
    obtain ⟨rfl, rfl⟩ := Prod.mk.inj (Except.ok.inj hresult)
    -- The activation guard refuses a contract that the history has archived.
    have hactive : before.active = true := by
      rw [hbefore] at hwitnesses
      obtain ⟨_, _, hwitnesses⟩ := bind_eq_ok.mp hwitnesses
      obtain ⟨_, hguard, _⟩ := bind_eq_ok.mp hwitnesses
      exact guardThat_eq_ok.mp hguard
    rcases hfolded.lifecycle hbefore with ⟨hopen, hconsumed⟩ | ⟨hinactive, _⟩
    · exact Or.inl ⟨⟨hopen.active_eq, hopen.offset_eq, hopen.time_eq⟩, hconsumed⟩
    · rw [hactive] at hinactive
      cases hinactive

/-- A contract that only the active-contract input holds is open. -/
theorem MapperRun.only_active_open (run : MapperRun locale source activeContracts fragment)
    (hearly : NoEarlyExercise source) {id : String} {row : ContractRow}
    (hrow : run.reconciled.contracts.get id = some row) (hcreated : ¬ CreatedIn source id) :
    ActiveIn activeContracts id ∧ row.Open := by
  have hspec := run.reconciled_spec
  have hmissing : run.history.contracts.get id = none := by
    cases hbefore : run.history.contracts.get id with
    | none => rfl
    | some before =>
        obtain ⟨item, hitem, hcreates⟩ := ((run.folded hearly).created_iff id).mp ⟨before, hbefore⟩
        exact absurd ⟨item, run.pending_perm.mem_iff.mp hitem, hcreates⟩ hcreated
  by_cases hnone : activations run.input.activeEntries id = []
  · rw [(hspec.untouched id hnone).1, hmissing] at hrow
    cases hrow
  · refine ⟨(run.activations_iff id).mp hnone, ?_⟩
    obtain ⟨found, creation, hresult, hfound, _⟩ := hspec.reconciled id hnone
    obtain rfl := Option.some.inj (hfound.symm.trans hrow)
    obtain ⟨_, _, hresult⟩ := bind_eq_ok.mp hresult
    obtain ⟨_, _, hresult⟩ := bind_eq_ok.mp hresult
    rcases reconciledPair_cases hresult with ⟨before, _, hbefore, _⟩ | ⟨_, _, _, _, _, rfl, _⟩
    · rw [hmissing] at hbefore
      cases hbefore
    · exact ⟨rfl, rfl, rfl⟩

/-- There is a row for every contract of the input, and for no other. -/
theorem MapperRun.contracts_iff (run : MapperRun locale source activeContracts fragment)
    (hearly : NoEarlyExercise source) (id : String) :
    (∃ row, run.reconciled.contracts.get id = some row) ↔
      CreatedIn source id ∨ ActiveIn activeContracts id := by
  have hspec := run.reconciled_spec
  constructor
  · intro h
    obtain ⟨row, hrow⟩ := h
    by_cases hcreated : CreatedIn source id
    · exact Or.inl hcreated
    · exact Or.inr (run.only_active_open hearly hrow hcreated).1
  · intro h
    by_cases hnone : activations run.input.activeEntries id = []
    · rw [(hspec.untouched id hnone).1, (run.folded hearly).created_iff id]
      rcases h with hcreated | hactive
      · obtain ⟨item, hitem, hcreates⟩ := hcreated
        exact ⟨item, run.pending_perm.mem_iff.mpr hitem, hcreates⟩
      · exact absurd hnone ((run.activations_iff id).mpr hactive)
    · obtain ⟨row, _, _, hrow, _⟩ := hspec.reconciled id hnone
      exact ⟨row, hrow⟩

/-- Every event of the history has its row, and every exercise its row, once. -/
theorem MapperRun.history_once (run : MapperRun locale source activeContracts fragment)
    (hearly : NoEarlyExercise source) :
    ∃ ordered : List PendingEvent, ordered.Perm (historyEvents source) ∧
      (ordered.Pairwise fun a b => comparePending a b = .lt) ∧
      List.Forall₂ (fun item row => mapEvent item = .ok row) ordered fragment.events ∧
      ∃ rows, rows.Perm fragment.exercises ∧
        List.Forall₂ IsExerciseRow (ordered.filter isExercise) rows := by
  refine ⟨run.input.pending, run.pending_perm, pending_increasing run.input_read,
    mapM_eq_ok.mp run.events_mapped, run.history.exerciseRows, ?_, (run.folded hearly).exercises⟩
  rw [run.exercises_eq, run.reconciled_spec.exercises_eq]
  exact (perm_sortBy _ _).symm

/-- Where no orphan is consumed, every row is as the history left its contract. -/
theorem MapperRun.after (run : MapperRun locale source activeContracts fragment)
    (hearly : NoEarlyExercise source) (horphan : NoOrphanConsumed source activeContracts)
    {row : ContractRow} (hrow : row ∈ fragment.contracts) :
    row.After run.input.pending row.contractId := by
  rw [run.mem_contracts] at hrow
  by_cases hcreated : CreatedIn source row.contractId
  · exact run.created_after hearly hrow hcreated
  · obtain ⟨hactive, hopen⟩ := run.only_active_open hearly hrow hcreated
    refine Or.inl ⟨hopen, ?_⟩
    intro item hitem hconsumes
    exact horphan _ hactive hcreated ⟨item, run.pending_perm.mem_iff.mp hitem, hconsumes⟩

end Run

/-- Lifecycles are told right exactly when no contract of the active-contract input is consumed by a
history that did not create it. -/
theorem lifecycle_iff {source : List Transaction} {activeContracts : List GetActiveContractsResponse}
    {fragment : GrpcQueryRelationFragment}
    (hmapped : mapGrpcQueryRelationFragment locale source activeContracts = .ok fragment)
    (hearly : NoEarlyExercise source) :
    Lifecycle source activeContracts fragment ↔ NoOrphanConsumed source activeContracts := by
  obtain ⟨run⟩ := mapGrpcQueryRelationFragment_ok.mp hmapped
  constructor
  · intro h id hactive hcreated hconsumed
    obtain ⟨row, hrow⟩ := (run.contracts_iff hearly id).mpr (Or.inr hactive)
    obtain ⟨rfl, _⟩ := run.reconciled_spec.keyed.contract_key hrow
    have hopen := (run.only_active_open hearly hrow hcreated).2
    have hinactive := (h.inactive_iff row (run.mem_contracts.mpr hrow)).mpr hconsumed
    rw [hopen.active_eq] at hinactive
    cases hinactive
  · intro horphan
    have hafter : ∀ {row}, row ∈ fragment.contracts → row.After run.input.pending row.contractId :=
      run.after hearly horphan
    have hconsumed : ∀ id, (∃ item ∈ run.input.pending, item.Consumes id) ↔ ConsumedIn source id := by
      intro id
      exact exists_congr fun item => and_congr_left fun _ => run.pending_perm.mem_iff
    exact {
      contracts_nodup := run.contract_ids.nodup_iff.mpr (KeyedMap.keys_nodup' _)
      contracts_iff := by
        intro id
        rw [run.contract_ids.mem_iff, KeyedMap.mem_keys]
        exact run.contracts_iff hearly id
      creations_nodup := run.creation_ids.nodup_iff.mpr (KeyedMap.keys_nodup' _)
      creations_iff := by
        intro id
        rw [run.creation_ids.mem_iff, KeyedMap.mem_keys, ← run.reconciled_spec.keyed.same_keys id]
        exact run.contracts_iff hearly id
      inactive_iff := by
        intro row hrow
        rw [(hafter hrow).inactive_iff]
        exact hconsumed row.contractId
      archived_by := by
        intro row hrow item hitem hconsumes
        exact (hafter hrow).archivedBy (run.pending_perm.mem_iff.mpr hitem) hconsumes
      offset_iff := fun row hrow => (hafter hrow).columns.1
      time_iff := fun row hrow => (hafter hrow).columns.2
      history_once := run.history_once hearly }

/-- The archive of a token that the history does not create. -/
def orphanArchived : List Transaction := [tokenTransaction "5" [.exercised (tokenArchived "5" 0 "c1")]]

theorem lifecycle_iff_run : ∃ fragment,
    mapGrpcQueryRelationFragment .codeUnits archivedToken [tokenActive "4" "c2"] = .ok fragment ∧
    NoEarlyExercise archivedToken ∧
    (Lifecycle archivedToken [tokenActive "4" "c2"] fragment ↔
      NoOrphanConsumed archivedToken [tokenActive "4" "c2"]) := by
  have hsome : (mapGrpcQueryRelationFragment .codeUnits archivedToken
      [tokenActive "4" "c2"]).toOption.isSome = true := by decide +kernel
  obtain ⟨fragment, hfragment⟩ := Option.isSome_iff_exists.mp hsome
  rw [toOption_eq_some_iff] at hfragment
  have hearly : NoEarlyExercise archivedToken := by
    intro exercise hexercise create hcreate id hexercises hcreates
    change exercise ∈ [_, _] at hexercise
    change create ∈ [_, _] at hcreate
    simp only [List.mem_cons, List.not_mem_nil, or_false] at hexercise hcreate
    rcases hexercise with rfl | rfl
    · obtain ⟨_, hevent, _⟩ := hexercises
      cases hevent
    · rcases hcreate with rfl | rfl
      · decide
      · obtain ⟨_, hevent, _⟩ := hcreates
        cases hevent
  exact ⟨fragment, hfragment, hearly, lifecycle_iff hfragment hearly⟩

/-- The row of the orphan stays active, whatever the history says. -/
theorem orphan_consumed_stays_active : ∃ fragment,
    mapGrpcQueryRelationFragment .codeUnits orphanArchived [tokenActive "3" "c1"] = .ok fragment ∧
    NoEarlyExercise orphanArchived ∧
    ¬ Lifecycle orphanArchived [tokenActive "3" "c1"] fragment := by
  have hactive : ((mapGrpcQueryRelationFragment .codeUnits orphanArchived
      [tokenActive "3" "c1"]).toOption.any fun fragment => fragment.contracts.any fun row =>
        row.active && row.contractId == "c1") = true := by decide +kernel
  obtain ⟨fragment, hfragment, hrow⟩ := (Option.any_eq_true _ _).mp hactive
  rw [toOption_eq_some_iff] at hfragment
  obtain ⟨row, hmem, hrow⟩ := List.any_eq_true.mp hrow
  rw [Bool.and_eq_true, beq_iff_eq] at hrow
  have honly : historyEvents orphanArchived
      = [⟨(tokenTransaction "5" []).toTransactionHeader, .exercised (tokenArchived "5" 0 "c1")⟩] := rfl
  refine ⟨fragment, hfragment, ?_, ?_⟩
  · intro _ _ create hcreate _ _ hcreates
    rw [honly, List.mem_singleton] at hcreate
    obtain ⟨_, hevent, _⟩ := hcreates
    rw [hcreate] at hevent
    cases hevent
  · intro h
    have hinactive := (h.inactive_iff row hmem).mpr
      ⟨_, honly ▸ List.mem_singleton.mpr rfl, _, rfl, hrow.2.symm, rfl⟩
    rw [hrow.1] at hinactive
    cases hinactive

end CantonSdk.Query.Grpc
