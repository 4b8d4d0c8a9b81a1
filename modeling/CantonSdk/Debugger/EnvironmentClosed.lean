import CantonSdk.Debugger.EnvironmentBuilder

/-!
# The replay environment is closed

The loop of the builder is a worklist whose successors are the ids collected from a payload. Where every
value it meets is readable, those are the contract ids of the payload, so the contracts it comes to are the
ones that are needed, and on a ledger that answers truthfully it ends with all of them or rejects because
one of them has no created event with arguments.
-/

set_option linter.all false

namespace CantonSdk.Debugger

open CantonSdk.Base

/-! ## What a replay needs -/

/-- The transaction created the contract. -/
def ReplayTransactionSnapshot.Creates (snapshot : ReplayTransactionSnapshot) (contractId : String) : Prop :=
  ∃ event, .created event ∈ snapshot.events ∧ event.contractId = some contractId

def ReplayTransactionSnapshot.Exercises (snapshot : ReplayTransactionSnapshot) (contractId : String) :
    Prop :=
  ∃ event, .exercised event ∈ snapshot.events ∧ event.contractId = some contractId

/-- The created events of a ledger, by contract id. -/
abbrev Ledger := KeyedMap String CreatedEvent

/-- The contracts a replay needs: those the transaction exercises, and those that occur in the argument of
the entrypoint, in the payload of a contract that the transaction creates, or in the payload that the
ledger has for a contract that is needed. -/
inductive Needed (ledger : Ledger) (snapshot : ReplayTransactionSnapshot) : String → Prop
  | exercised {contractId : String} : snapshot.Exercises contractId → Needed ledger snapshot contractId
  | entrypoint {contractId : String} : snapshot.entrypoint.kind = .exercise →
      snapshot.entrypoint.contractId = some contractId → Needed ledger snapshot contractId
  | argument {value : LedgerValue} {contractId : String} : snapshot.entrypoint.argument = some value →
      contractId ∈ value.contractIds → Needed ledger snapshot contractId
  | created {event : CreatedEvent} {created contractId : String} {value : LedgerValue} :
      .created event ∈ snapshot.events → event.contractId = some created →
      event.createArguments = some value → contractId ∈ value.contractIds →
      Needed ledger snapshot contractId
  | payload {event : CreatedEvent} {needed contractId : String} {value : LedgerValue} :
      Needed ledger snapshot needed → ¬ snapshot.Creates needed → ledger.get needed = some event →
      event.createArguments = some value → contractId ∈ value.contractIds →
      Needed ledger snapshot contractId

/-- Services that answer from the ledger: the event query service answers, whatever created event either of
them shows is the ledger's, and one of them shows it. -/
structure Truthful (ledger : Ledger) (services : ReplayServices) : Prop where
  answers : ∀ contractId format, ∃ history, services.getEventsByContractId contractId format = .ok history
  contract_sound : ∀ contractId parties event,
    services.getContract contractId parties = .ok (some event) → ledger.get contractId = some event
  history_sound : ∀ contractId format history event,
    services.getEventsByContractId contractId format = .ok history → history.createdEvent = some event →
    ledger.get contractId = some event
  shown : ∀ contractId parties format event, ledger.get contractId = some event →
    services.getContract contractId parties = .ok (some event) ∨
      ∃ history, services.getEventsByContractId contractId format = .ok history ∧
        history.createdEvent = some event
  identified : ∀ contractId event, ledger.get contractId = some event → event.contractId = some contractId

/-- An environment with everything a replay of the transaction can ask for. -/
structure ClosedEnvironment (snapshot : ReplayTransactionSnapshot) (environment : LedgerReplayEnvironment) :
    Prop where
  created : ∀ contractId, snapshot.Creates contractId → contractId ∈ environment.contracts.keys
  exercised : ∀ contractId, snapshot.Exercises contractId → contractId ∈ environment.contracts.keys
  entrypoint : ∀ contractId, snapshot.entrypoint.kind = .exercise →
    snapshot.entrypoint.contractId = some contractId → contractId ∈ environment.contracts.keys
  argument : ∀ value, snapshot.entrypoint.argument = some value →
    ∀ contractId ∈ value.contractIds, contractId ∈ environment.contracts.keys
  payloads : ∀ key contract, environment.contracts.get key = some contract →
    ∀ value, contract.rawCreatedEvent.createArguments = some value →
      ∀ contractId ∈ value.contractIds, contractId ∈ environment.contracts.keys
  packages : ∀ key contract, environment.contracts.get key = some contract →
    ∀ packageId, templatePackage contract.templateId = some packageId → packageId.isEmpty = false →
      packageId ∈ environment.packageIds
  entrypoint_package : ∀ packageId, templatePackage snapshot.entrypoint.templateId = some packageId →
    packageId.isEmpty = false → packageId ∈ environment.packageIds

/-- Every run that is long enough is the same and has ended; it succeeds exactly when the ledger has the
arguments of everything needed; its environment is closed; and it fetched no contract twice, and none that
the transaction created. -/
def Hydrates (ledger : Ledger) (dependencies : ReplayDependencies) (snapshot : ReplayTransactionSnapshot) :
    Prop :=
  ∃ run : BuildRun, (∃ enough, ∀ fuel, enough ≤ fuel → buildOrThrow dependencies snapshot fuel = run) ∧
    run.result ≠ .error .outOfFuel ∧
    ((∃ environment, run.result = .ok environment) ↔
      ∀ contractId, Needed ledger snapshot contractId → ¬ snapshot.Creates contractId →
        ∃ event, ledger.get contractId = some event ∧ event.createArguments.isSome = true) ∧
    (∀ environment, run.result = .ok environment → ClosedEnvironment snapshot environment) ∧
    run.fetched.Nodup ∧ ∀ contractId ∈ run.fetched, ¬ snapshot.Creates contractId

/-- The values that a run can meet are well-formed. -/
structure WellFormedValues (ledger : Ledger) (snapshot : ReplayTransactionSnapshot) : Prop where
  argument : ∀ value, snapshot.entrypoint.argument = some value → value.isWellFormed = true
  created : ∀ event value, .created event ∈ snapshot.events → event.createArguments = some value →
    value.isWellFormed = true
  ledger : ∀ contractId event value, ledger.get contractId = some event →
    event.createArguments = some value → value.isWellFormed = true

/-- The values that a run can meet are readable. -/
structure ReadableValues (ledger : Ledger) (snapshot : ReplayTransactionSnapshot) : Prop where
  argument : ∀ value, snapshot.entrypoint.argument = some value → value.isReadable = true
  created : ∀ event value, .created event ∈ snapshot.events → event.createArguments = some value →
    value.isReadable = true
  needed : ∀ contractId event value, Needed ledger snapshot contractId →
    ledger.get contractId = some event → event.createArguments = some value → value.isReadable = true

/-! ## References of a payload -/

/-- What the builder follows from a readable value are the contract ids in it. -/
theorem mem_referenced {value : LedgerValue} {contractId : String} (hformed : value.isWellFormed = true)
    (hreadable : value.isReadable = true) :
    contractId ∈ referencedContractIds (normalizeReplayLedgerValue value) ↔ contractId ∈ value.contractIds := by
  rw [referencedContractIds, List.mem_filter, mem_collect, mem_marked_normalize value hformed hreadable]
  constructor
  · exact fun h => h.1
  · intro h
    refine ⟨h, ?_⟩
    rw [nonempty_of_wellFormed value hformed h]
    rfl

theorem mem_referenced_payload {event : CreatedEvent} {value : LedgerValue} {contractId : String}
    (hvalue : event.createArguments = some value) (hformed : value.isWellFormed = true)
    (hreadable : value.isReadable = true) :
    contractId ∈ referencedContractIds (eventPayload event) ↔ contractId ∈ value.contractIds := by
  have hattach : ∀ id, id ∈ collectReplayLedgerContractIds (eventPayload event) ↔
      id ∈ collectReplayLedgerContractIds (normalizeReplayLedgerValue value) := by
    intro id
    rw [mem_collect, mem_collect, eventPayload, hvalue]
    exact mem_marked_attach _ fun _ => keys_nodup_normalize value
  rw [← mem_referenced hformed hreadable, referencedContractIds, referencedContractIds, List.mem_filter,
    List.mem_filter, hattach]

/-- An event without arguments refers to nothing. -/
theorem not_mem_referenced_payload {event : CreatedEvent} (hnone : event.createArguments = none)
    (contractId : String) : contractId ∉ referencedContractIds (eventPayload event) := by
  rw [eventPayload, hnone]
  exact nofun

/-! ## Fetching from a truthful ledger -/

section Ledger

variable {ledger : Ledger} {dependencies : ReplayDependencies} {snapshot : ReplayTransactionSnapshot}
  {contractId : String}

/-- The events that a truthful ledger shows for a contract are its created event. -/
theorem materialized_sound (htruth : Truthful ledger dependencies.services) {history : EventHistory}
    {event : CreatedEvent}
    (hhistory : contractEventHistory dependencies snapshot contractId = .ok history)
    (hevent : materializedCreatedEvent (contractCreatedEvent dependencies snapshot contractId)
      history.createdEvent = some event) : ledger.get contractId = some event := by
  cases List.mem_append.mp (List.mem_of_find?_eq_some hevent) with
  | inl hmem =>
      have hcreated := Option.mem_toList.mp hmem
      unfold contractCreatedEvent at hcreated
      cases hget : dependencies.services.getContract contractId (getQueryingParties dependencies snapshot) with
      | error message =>
          rw [hget] at hcreated
          cases hcreated
      | ok created =>
          rw [hget] at hcreated
          apply htruth.contract_sound contractId _ event
          rw [hget]
          exact congrArg Except.ok hcreated
  | inr hmem =>
      have hcreated := Option.mem_toList.mp hmem
      unfold contractEventHistory at hhistory
      cases hevents : dependencies.services.getEventsByContractId contractId
          (createReplayEventFormat (getQueryingParties dependencies snapshot)) with
      | error message =>
          rw [hevents] at hhistory
          cases hhistory
      | ok events =>
          rw [hevents] at hhistory
          obtain rfl := Except.ok.inj hhistory
          exact htruth.history_sound contractId _ events event hevents hcreated

/-- What a fetched contract has from its created event. -/
theorem hydrateContract_ok (htruth : Truthful ledger dependencies.services)
    {contract : HydratedReplayContract}
    (h : hydrateContract dependencies snapshot contractId = .ok contract) :
    ∃ event, ledger.get contractId = some event ∧ event.createArguments.isSome = true ∧
      contract.rawCreatedEvent = event ∧ contract.payload = eventPayload event := by
  obtain ⟨history, hhistory, h⟩ := bind_eq_ok.mp h
  cases hevent : materializedCreatedEvent (contractCreatedEvent dependencies snapshot contractId)
      history.createdEvent with
  | none =>
      rw [hevent] at h
      cases h
  | some event =>
      rw [hevent] at h
      obtain rfl := Except.ok.inj h
      have hmaterialized := List.find?_some hevent
      rw [isMaterialized, Bool.and_eq_true] at hmaterialized
      exact ⟨event, materialized_sound htruth hhistory hevent, hmaterialized.2, rfl, rfl⟩

/-- A contract that the ledger has with its arguments can be fetched. -/
theorem hydrateContract_succeeds (snapshot : ReplayTransactionSnapshot)
    (htruth : Truthful ledger dependencies.services) {event : CreatedEvent}
    (hevent : ledger.get contractId = some event) (harguments : event.createArguments.isSome = true) :
    ∃ contract, hydrateContract dependencies snapshot contractId = .ok contract := by
  let parties := getQueryingParties dependencies snapshot
  obtain ⟨history, hhistory⟩ := htruth.answers contractId (createReplayEventFormat parties)
  have hmaterialized : isMaterialized event = true := by
    rw [isMaterialized, htruth.identified contractId event hevent, harguments]
    rfl
  have hfound : (materializedCreatedEvent (contractCreatedEvent dependencies snapshot contractId)
      history.createdEvent).isSome = true := by
    rw [materializedCreatedEvent, List.find?_isSome]
    refine ⟨event, List.mem_append.mpr ?_, hmaterialized⟩
    cases htruth.shown contractId parties (createReplayEventFormat parties) event hevent with
    | inl hcontract =>
        left
        rw [contractCreatedEvent, hcontract]
        exact List.mem_singleton_self event
    | inr hshown =>
        obtain ⟨history', hhistory', hcreated⟩ := hshown
        obtain rfl := Except.ok.inj (hhistory.symm.trans hhistory')
        right
        rw [hcreated]
        exact List.mem_singleton_self event
  obtain ⟨materialized, hfind⟩ := Option.isSome_iff_exists.mp hfound
  refine ⟨hydratedContract contractId history materialized, bind_eq_ok.mpr ⟨history, ?_, ?_⟩⟩
  · rw [contractEventHistory, hhistory]
    rfl
  · rw [hfind]

theorem hydrateContract_ne_outOfFuel (contractId : String) :
    hydrateContract dependencies snapshot contractId ≠ .error .outOfFuel := by
  unfold hydrateContract contractEventHistory
  cases dependencies.services.getEventsByContractId contractId
      (createReplayEventFormat (getQueryingParties dependencies snapshot)) with
  | error message =>
      intro h
      cases h
  | ok history =>
      simp only [bind, Except.bind, rejectedByService]
      cases materializedCreatedEvent (contractCreatedEvent dependencies snapshot contractId) history.createdEvent <;>
        simp [couldNotHydrate]

end Ledger

/-! ## Before the first fetch -/

section Initial

variable {snapshot : ReplayTransactionSnapshot} {contractId : String}

/-- The package of the contract's template is among the package ids. -/
def PackageNoted (contract : HydratedReplayContract) (packageIds : List String) : Prop :=
  ∀ packageId, templatePackage contract.templateId = some packageId → packageId.isEmpty = false →
    packageId ∈ packageIds

theorem mem_addPackageId_of_mem {packageIds : List String} {packageId : String} (other : Option String)
    (h : packageId ∈ packageIds) : packageId ∈ addPackageId packageIds other := by
  unfold addPackageId
  split
  · split
    · exact h
    · exact mem_addPending.mpr (Or.inr h)
  · exact h

theorem mem_addPackageId_self {packageId : String} (packageIds : List String)
    (hnonempty : packageId.isEmpty = false) : packageId ∈ addPackageId packageIds (some packageId) := by
  rw [addPackageId, hnonempty]
  exact mem_addPending.mpr (Or.inl rfl)

theorem notePackage_noted (contract : HydratedReplayContract) (packageIds : List String) :
    PackageNoted contract (notePackage contract packageIds) := by
  intro packageId hpackage hnonempty
  rw [notePackage, hpackage]
  exact mem_addPackageId_self packageIds hnonempty

theorem PackageNoted.notePackage {contract other : HydratedReplayContract} {packageIds : List String}
    (h : PackageNoted contract packageIds) : PackageNoted contract (notePackage other packageIds) :=
  fun packageId hpackage hnonempty => mem_addPackageId_of_mem _ (h packageId hpackage hnonempty)

/-- What the contracts that the transaction created add to a worklist. -/
theorem foldl_addVisibleContract (contracts : List HydratedReplayContract) (w : ReplayWorklist) :
    (contracts.foldl addVisibleContract w).done
        = contracts.foldl (fun done contract => done.set contract.contractId contract) w.done ∧
      (∀ contractId, contractId ∈ (contracts.foldl addVisibleContract w).pending ↔
        contractId ∈ w.pending ∨ ∃ contract ∈ contracts, contractId ∈ payloadReferences contract) ∧
      (contracts.foldl addVisibleContract w).visited = w.visited ∧
      (∀ contract, contract ∈ contracts ∨ PackageNoted contract w.notes →
        PackageNoted contract (contracts.foldl addVisibleContract w).notes) := by
  induction contracts generalizing w with
  | nil => simp
  | cons first rest ih =>
      obtain ⟨hdone, hpending, hvisited, hnotes⟩ := ih (addVisibleContract w first)
      refine ⟨hdone, ?_, hvisited, ?_⟩
      · intro contractId
        rw [List.foldl_cons, hpending, addVisibleContract, mem_foldl_addPending, List.exists_mem_cons_iff,
          or_assoc, or_left_comm]
      · intro contract hcontract
        apply hnotes
        rcases hcontract with hmem | hnoted
        · cases List.mem_cons.mp hmem with
          | inl heq => exact Or.inr (heq ▸ notePackage_noted first w.notes)
          | inr hmem => exact Or.inl hmem
        · exact Or.inr hnoted.notePackage

theorem mem_getVisibleCreatedContracts {contract : HydratedReplayContract} :
    contract ∈ getVisibleCreatedContracts snapshot ↔
      ∃ event, .created event ∈ snapshot.events ∧ visibleCreatedContract (.created event) = some contract := by
  rw [getVisibleCreatedContracts, List.mem_filterMap]
  constructor
  · intro h
    obtain ⟨event, hevent, hcontract⟩ := h
    cases event with
    | created event => exact ⟨event, hevent, hcontract⟩
    | exercised | archived | other => cases hcontract
  · intro h
    obtain ⟨event, hevent, hcontract⟩ := h
    exact ⟨.created event, hevent, hcontract⟩

/-- What a contract that the transaction created has from its event. -/
theorem visibleCreatedContract_eq {event : CreatedEvent} {contract : HydratedReplayContract}
    (h : visibleCreatedContract (.created event) = some contract) :
    event.contractId = some contract.contractId ∧ contract.rawCreatedEvent = event ∧
      contract.payload = eventPayload event := by
  obtain ⟨contractId, hid, rfl⟩ := Option.map_eq_some_iff.mp h
  exact ⟨hid, rfl, rfl⟩

theorem initialWorklist_done :
    (initialWorklist snapshot).done = KeyedMap.ofEntries
      ((getVisibleCreatedContracts snapshot).map fun contract => (contract.contractId, contract)) := by
  rw [KeyedMap.ofEntries, List.foldl_map]
  exact (foldl_addVisibleContract _ _).1

theorem mem_initialWorklist_done {contract : HydratedReplayContract}
    (h : (initialWorklist snapshot).done.get contractId = some contract) :
    ∃ event, .created event ∈ snapshot.events ∧ event.contractId = some contractId ∧
      contract.rawCreatedEvent = event ∧ contract ∈ getVisibleCreatedContracts snapshot := by
  rw [initialWorklist_done] at h
  obtain ⟨other, hother, heq⟩ := List.mem_map.mp (KeyedMap.mem_of_get_ofEntries h)
  obtain ⟨rfl, rfl⟩ := Prod.mk.inj heq
  obtain ⟨event, hevent, hvisible⟩ := mem_getVisibleCreatedContracts.mp hother
  obtain ⟨hid, hraw, _⟩ := visibleCreatedContract_eq hvisible
  exact ⟨event, hevent, hid, hraw, hother⟩

/-- The contracts that are there from the start are those that the transaction created. -/
theorem mem_initialWorklist_keys :
    contractId ∈ (initialWorklist snapshot).done.keys ↔ snapshot.Creates contractId := by
  rw [initialWorklist_done, KeyedMap.mem_keys_ofEntries]
  constructor
  · intro h
    obtain ⟨contract, hcontract⟩ := h
    obtain ⟨other, hother, heq⟩ := List.mem_map.mp hcontract
    obtain ⟨rfl, rfl⟩ := Prod.mk.inj heq
    obtain ⟨event, hevent, hvisible⟩ := mem_getVisibleCreatedContracts.mp hother
    exact ⟨event, hevent, (visibleCreatedContract_eq hvisible).1⟩
  · intro h
    obtain ⟨event, hevent, hid⟩ := h
    have hvisible : ∃ contract, visibleCreatedContract (.created event) = some contract ∧
        contract.contractId = contractId := by
      rw [visibleCreatedContract, hid]
      exact ⟨_, rfl, rfl⟩
    obtain ⟨contract, hcontract, hkey⟩ := hvisible
    exact ⟨contract, List.mem_map.mpr
      ⟨contract, mem_getVisibleCreatedContracts.mpr ⟨event, hevent, hcontract⟩, by rw [hkey]⟩⟩

theorem mem_getRequiredContractIds :
    contractId ∈ getRequiredContractIds snapshot ↔
      (snapshot.entrypoint.kind = .exercise ∧ snapshot.entrypoint.contractId = some contractId) ∨
        snapshot.Exercises contractId := by
  rw [getRequiredContractIds, mem_foldl_addPending, List.mem_append, Option.mem_toList,
    List.mem_filterMap]
  have hentrypoint : entrypointContractId snapshot.entrypoint = some contractId ↔
      snapshot.entrypoint.kind = .exercise ∧ snapshot.entrypoint.contractId = some contractId := by
    unfold entrypointContractId
    cases snapshot.entrypoint.kind <;> simp
  have hexercised : (∃ event ∈ snapshot.events, exercisedContractId event = some contractId) ↔
      snapshot.Exercises contractId := by
    constructor
    · intro h
      obtain ⟨event, hevent, hid⟩ := h
      cases event with
      | exercised event => exact ⟨event, hevent, hid⟩
      | created | archived | other => cases hid
    · intro h
      obtain ⟨event, hevent, hid⟩ := h
      exact ⟨.exercised event, hevent, hid⟩
  rw [hentrypoint, hexercised]
  exact or_iff_left nofun

theorem mem_initialWorklist_pending :
    contractId ∈ (initialWorklist snapshot).pending ↔
      contractId ∈ referencedContractIds (normalizeOptional snapshot.entrypoint.argument) ∨
        contractId ∈ getRequiredContractIds snapshot ∨
        ∃ contract ∈ getVisibleCreatedContracts snapshot, contractId ∈ payloadReferences contract := by
  rw [initialWorklist, mem_foldl_addPending, (foldl_addVisibleContract _ _).2.1]

end Initial

/-! ## The whole run -/

section Run

variable {ledger : Ledger} {dependencies : ReplayDependencies} {snapshot : ReplayTransactionSnapshot}
  {contractId : String}

/-- The contracts that the builder comes to. -/
abbrev Visited (dependencies : ReplayDependencies) (snapshot : ReplayTransactionSnapshot) : String → Prop :=
  Reached (hydrateContract dependencies snapshot) payloadReferences
    (fun contractId => contractId ∈ (initialWorklist snapshot).pending) (initialWorklist snapshot).done

theorem explored_initial (dependencies : ReplayDependencies) (snapshot : ReplayTransactionSnapshot) :
    Explored (hydrateContract dependencies snapshot) payloadReferences PackageNoted
      (fun contractId => contractId ∈ (initialWorklist snapshot).pending) (initialWorklist snapshot).done
      (initialWorklist snapshot) := by
  have hvisited : (initialWorklist snapshot).visited = [] := (foldl_addVisibleContract _ _).2.2.1
  constructor
  · exact fun _ _ h => h
  · exact fun _ _ h => Or.inl h
  · rw [hvisited]
    exact nofun
  · rw [hvisited]
    exact nofun
  · rw [hvisited]
    exact List.nodup_nil
  · exact fun _ h => Reached.root h
  · exact fun _ h => Or.inr h
  · rw [hvisited]
    exact nofun
  · intro key contract hcontract
    obtain ⟨_, _, _, _, hmem⟩ := mem_initialWorklist_done hcontract
    exact (foldl_addVisibleContract _ _).2.2.2 contract (Or.inl hmem)

theorem needed_of_visited (htruth : Truthful ledger dependencies.services)
    (hformed : WellFormedValues ledger snapshot) (hreadable : ReadableValues ledger snapshot)
    (h : Visited dependencies snapshot contractId) : Needed ledger snapshot contractId := by
  induction h with
  | @root contractId hroot =>
      rcases mem_initialWorklist_pending.mp hroot with hargument | hrequired | hvisible
      · cases hvalue : snapshot.entrypoint.argument with
        | none =>
            rw [hvalue] at hargument
            cases hargument
        | some value =>
            rw [hvalue] at hargument
            exact Needed.argument hvalue ((mem_referenced (hformed.argument value hvalue)
              (hreadable.argument value hvalue)).mp hargument)
      · cases mem_getRequiredContractIds.mp hrequired with
        | inl hentrypoint => exact Needed.entrypoint hentrypoint.1 hentrypoint.2
        | inr hexercised => exact Needed.exercised hexercised
      · obtain ⟨contract, hcontract, hmem⟩ := hvisible
        obtain ⟨event, hevent, hsome⟩ := mem_getVisibleCreatedContracts.mp hcontract
        obtain ⟨hid, _, hpayload⟩ := visibleCreatedContract_eq hsome
        rw [payloadReferences, hpayload] at hmem
        cases hvalue : event.createArguments with
        | none => exact absurd hmem (not_mem_referenced_payload hvalue _)
        | some value =>
            exact Needed.created hevent hid hvalue ((mem_referenced_payload hvalue
              (hformed.created event value hevent hvalue)
              (hreadable.created event value hevent hvalue)).mp hmem)
  | step _ hfresh hvisit hnext ih =>
      obtain ⟨event, hevent, harguments, _, hpayload⟩ := hydrateContract_ok htruth hvisit
      obtain ⟨value, hvalue⟩ := Option.isSome_iff_exists.mp harguments
      rw [payloadReferences, hpayload] at hnext
      exact Needed.payload ih (mt mem_initialWorklist_keys.mpr hfresh) hevent hvalue
        ((mem_referenced_payload hvalue (hformed.ledger _ event value hevent hvalue)
          (hreadable.needed _ event value ih hevent hvalue)).mp hnext)

theorem visited_of_needed (htruth : Truthful ledger dependencies.services)
    (hformed : WellFormedValues ledger snapshot) (hreadable : ReadableValues ledger snapshot)
    (h : Needed ledger snapshot contractId) : Visited dependencies snapshot contractId := by
  induction h with
  | exercised hexercised =>
      apply Reached.root
      exact mem_initialWorklist_pending.mpr
        (Or.inr (Or.inl (mem_getRequiredContractIds.mpr (Or.inr hexercised))))
  | entrypoint hkind hid =>
      apply Reached.root
      exact mem_initialWorklist_pending.mpr
        (Or.inr (Or.inl (mem_getRequiredContractIds.mpr (Or.inl ⟨hkind, hid⟩))))
  | @argument value contractId hvalue hmem =>
      apply Reached.root
      apply mem_initialWorklist_pending.mpr
      left
      rw [hvalue]
      exact (mem_referenced (hformed.argument value hvalue) (hreadable.argument value hvalue)).mpr hmem
  | @created event created contractId value hevent hid hvalue hmem =>
      apply Reached.root
      apply mem_initialWorklist_pending.mpr
      right
      right
      have hvisible : ∃ contract, visibleCreatedContract (.created event) = some contract := by
        rw [visibleCreatedContract, hid]
        exact ⟨_, rfl⟩
      obtain ⟨contract, hcontract⟩ := hvisible
      refine ⟨contract, mem_getVisibleCreatedContracts.mpr ⟨event, hevent, hcontract⟩, ?_⟩
      rw [payloadReferences, (visibleCreatedContract_eq hcontract).2.2]
      exact (mem_referenced_payload hvalue (hformed.created event value hevent hvalue)
        (hreadable.created event value hevent hvalue)).mpr hmem
  | @payload event needed contractId value hneeded hfresh hevent hvalue hmem ih =>
      obtain ⟨contract, hcontract⟩ := hydrateContract_succeeds snapshot htruth hevent
        (Option.isSome_iff_exists.mpr ⟨value, hvalue⟩)
      obtain ⟨event', hevent', _, _, hpayload⟩ := hydrateContract_ok htruth hcontract
      obtain rfl := Option.some.inj (hevent.symm.trans hevent')
      apply Reached.step ih (mt mem_initialWorklist_keys.mp hfresh) hcontract
      rw [payloadReferences, hpayload]
      exact (mem_referenced_payload hvalue (hformed.ledger _ event value hevent hvalue)
        (hreadable.needed _ event value hneeded hevent hvalue)).mpr hmem

/-- The environment of a run that has drained its worklist. -/
theorem closedEnvironment_of_explored (htruth : Truthful ledger dependencies.services)
    (hformed : WellFormedValues ledger snapshot) (hreadable : ReadableValues ledger snapshot)
    {w : ReplayWorklist} {environment : LedgerReplayEnvironment}
    (hexplored : Explored (hydrateContract dependencies snapshot) payloadReferences PackageNoted
      (fun contractId => contractId ∈ (initialWorklist snapshot).pending) (initialWorklist snapshot).done w)
    (hpending : w.pending = []) (hcontracts : environment.contracts = w.done)
    (hpackages : environment.packageIds = sortBy compareText
      (addPackageId w.notes (templatePackage snapshot.entrypoint.templateId))) :
    ClosedEnvironment snapshot environment := by
  have hneeded : ∀ contractId, Needed ledger snapshot contractId → contractId ∈ w.done.keys :=
    fun contractId h => hexplored.complete hpending (visited_of_needed htruth hformed hreadable h)
  constructor
  · intro contractId hcreates
    obtain ⟨contract, hcontract⟩ := KeyedMap.mem_keys.mp (mem_initialWorklist_keys.mpr hcreates)
    rw [hcontracts]
    exact KeyedMap.mem_keys.mpr ⟨contract, hexplored.kept _ _ hcontract⟩
  · intro contractId hexercises
    rw [hcontracts]
    exact hneeded _ (Needed.exercised hexercises)
  · intro contractId hkind hid
    rw [hcontracts]
    exact hneeded _ (Needed.entrypoint hkind hid)
  · intro value hvalue contractId hmem
    rw [hcontracts]
    exact hneeded _ (Needed.argument hvalue hmem)
  · intro key contract hcontract value hvalue contractId hmem
    rw [hcontracts] at hcontract ⊢
    apply hneeded
    cases hexplored.done_cases key contract hcontract with
    | inl hstart =>
        obtain ⟨event, hevent, hid, hraw, _⟩ := mem_initialWorklist_done hstart
        rw [hraw] at hvalue
        exact Needed.created hevent hid hvalue hmem
    | inr hvisited =>
        obtain ⟨event, hevent, _, hraw, _⟩ := hydrateContract_ok htruth hvisited.2
        rw [hraw] at hvalue
        obtain ⟨hreached, hfresh⟩ := hexplored.visited_reached key hvisited.1
        exact Needed.payload (needed_of_visited htruth hformed hreadable hreached)
          (mt mem_initialWorklist_keys.mpr hfresh) hevent hvalue hmem
  · intro key contract hcontract packageId hpackage hnonempty
    rw [hcontracts] at hcontract
    rw [hpackages, mem_sortBy]
    exact mem_addPackageId_of_mem _ (hexplored.notes_made key contract hcontract packageId hpackage hnonempty)
  · intro packageId hpackage hnonempty
    rw [hpackages, mem_sortBy, hpackage]
    exact mem_addPackageId_self _ hnonempty

end Run

/-! ## Two runs -/

/-- Services that answer from a table; the contract service rejects what is not there. -/
def tableServices (ledger : Ledger) : ReplayServices where
  getContract contractId _ :=
    match ledger.get contractId with
    | some event => .ok (some event)
    | none => .error "not found"
  getEventsByContractId contractId _ := .ok ⟨ledger.get contractId, none, none⟩

/-- A table whose events name the contracts they stand under answers truthfully. -/
theorem tableServices_truthful {ledger : Ledger}
    (hidentified : ∀ contractId event, ledger.get contractId = some event → event.contractId = some contractId) :
    Truthful ledger (tableServices ledger) where
  answers contractId format := ⟨_, rfl⟩
  contract_sound contractId parties event h := by
    unfold tableServices at h
    dsimp only at h
    split at h
    · rename_i hget
      obtain rfl := Option.some.inj (Except.ok.inj h)
      exact hget
    · cases h
  history_sound contractId format history event h hevent := by
    obtain rfl := Except.ok.inj h
    exact hevent
  shown contractId parties format event h := Or.inr ⟨_, rfl, h⟩
  identified := hidentified

/-- A ledger with one contract that refers to itself. -/
def cyclicLedger : Ledger :=
  KeyedMap.ofEntries [("c", ⟨some "c", none, some (.record none [("", .contractId "c")])⟩)]

/-- A transaction whose entrypoint exercises a contract with the given argument. -/
def exerciseSnapshot (contractId : String) (argument : LedgerValue) : ReplayTransactionSnapshot where
  offset := "1"
  updateId := none
  actAs := []
  readAs := []
  events := []
  entrypoint := ⟨.exercise, none, some contractId, none, some argument⟩

/-- A text map with the marker as a key. -/
def markedArgument : LedgerValue := .textMap [(contractIdMarkerKey, .text "x")]

end CantonSdk.Debugger
