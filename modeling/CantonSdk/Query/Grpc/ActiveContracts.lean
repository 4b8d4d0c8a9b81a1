import CantonSdk.Query.Grpc.OrderIndependence

/-!
# Active contracts on their own

A snapshot is mapped without a history. Each contract is then reconciled from its own activations and
nothing else, so snapshots can be taken apart and put together by contract id: dropping some contracts
drops their rows, and adding others adds theirs.
-/

set_option linter.all false

namespace CantonSdk.Query.Grpc

open CantonSdk.Base CantonSdk.Query.Canonical

variable {locale : Collation}

/-! ### When a snapshot is accepted -/

/-- What an activation has to pass besides its own checks: its identities can be encoded. -/
structure EntryEncodes (entry : ActiveContractEntry) : Prop where
  registered : keyRegistry [.created entry.event] = .ok ()
  typed : ∃ rows, typeIdentityRows (.created entry.event) = .ok rows
  packaged : ∃ ids, packageIdsFor (.created entry.event) = .ok ids ∧
    ∀ id ∈ ids, ∃ key, publicKey id = .ok key

/-- A snapshot that the mapper accepts, said contract by contract. -/
structure ActiveValid (locale : Collation) (activeContracts : List GetActiveContractsResponse) :
    Prop where
  entry_valid : ∀ response ∈ activeContracts, ∃ entry,
    activeContractEntry locale response = .ok entry ∧ EntryEncodes entry
  keys_nodup : ((activeEntries activeContracts).map activationKey).Nodup
  reconciles : ∀ id, activations (activeEntries activeContracts) id ≠ [] → ∃ pair,
    reconcileContract locale id none none (activations (activeEntries activeContracts) id) = .ok pair

theorem sortedPackageIdentities_ok {ids : List String} :
    (∃ rows, sortedPackageIdentities ids = .ok rows) ↔ ∀ id ∈ ids, ∃ key, publicKey id = .ok key := by
  have hrow : ∀ id : String, (∃ row, (do return { pk := ← publicKey id, id } :
      Checked GrpcQueryPackageIdentity) = .ok row) ↔ ∃ key, publicKey id = .ok key := by
    intro id
    constructor
    · intro h
      obtain ⟨_, h⟩ := h
      obtain ⟨key, hkey, _⟩ := bind_eq_ok.mp h
      exact ⟨key, hkey⟩
    · intro h
      obtain ⟨key, hkey⟩ := h
      exact ⟨_, bind_eq_ok.mpr ⟨key, hkey, rfl⟩⟩
  unfold sortedPackageIdentities
  constructor
  · intro h id hid
    obtain ⟨rows, hrows⟩ := h
    obtain ⟨row, _, hok⟩ := exists_right_of_mem (mapM_eq_ok.mp hrows) (a := id) (by simpa using hid)
    exact (hrow id).mp ⟨row, hok⟩
  · intro h
    exact mapM_succeeds fun id hid => (hrow id).mpr (h id (by simpa using hid))

section Accepted

variable {activeContracts : List GetActiveContractsResponse} {fragment : GrpcQueryRelationFragment}

theorem MapperRun.pending_nil (run : MapperRun locale [] activeContracts fragment) :
    run.input.pending = [] :=
  (InputValid.pending_perm run.input_read).eq_nil

theorem MapperRun.history_empty (run : MapperRun locale [] activeContracts fragment) :
    run.history = .empty := by
  have hhistory := run.history_folded
  rw [run.pending_nil] at hhistory
  exact (Except.ok.inj hhistory).symm

theorem MapperRun.active_valid (run : MapperRun locale [] activeContracts fragment) :
    ActiveValid locale activeContracts := by
  obtain ⟨hvalid, _, _⟩ := readInput_ok.mp run.input_read
  have hevents : run.input.events = run.input.activeEntries.map fun entry =>
      LedgerEvent.created entry.event := by
    rw [MapperInput.events, run.pending_nil]
    rfl
  have htypes := mapM_eq_ok.mp run.types_mapped
  have hpackages := mapM_eq_ok.mp run.packages_mapped
  have hencoded := sortedPackageIdentities_ok.mp ⟨_, run.packages_sorted⟩
  rw [hevents] at htypes hpackages
  refine ⟨?_, ?_, ?_⟩
  · intro response hresponse
    obtain ⟨entry, hentry, hok⟩ := exists_right_of_mem (mapM_eq_ok.mp hvalid.entries_mapped) hresponse
    have hevent := List.mem_map_of_mem (f := fun entry : ActiveContractEntry =>
      LedgerEvent.created entry.event) hentry
    obtain ⟨rows, _, hrows⟩ := exists_right_of_mem htypes hevent
    obtain ⟨ids, hids, hmapped⟩ := exists_right_of_mem hpackages hevent
    refine ⟨entry, hok, ?_, ⟨rows, hrows⟩, ids, hmapped, fun id hid =>
      hencoded id (List.mem_flatten.mpr ⟨ids, hids, hid⟩)⟩
    have hregistered := hvalid.keys_encode
    rw [keyRegistry, checkAll_eq_ok] at hregistered ⊢
    intro event hsingle
    rw [List.mem_singleton.mp hsingle]
    exact hregistered _ (List.mem_append_right _ hevent)
  · rw [← run.activeEntries_eq]
    exact hvalid.activations_nodup
  · intro id hne
    have hspec := run.reconciled_spec
    rw [run.history_empty, run.activeEntries_eq] at hspec
    obtain ⟨_, _, hresult, _⟩ := hspec.reconciled id hne
    exact ⟨_, hresult⟩

theorem ActiveValid.entries_mapped (h : ActiveValid locale activeContracts) :
    activeContracts.mapM (activeContractEntry locale) = .ok (activeEntries activeContracts) := by
  have hvalid := h.entry_valid
  clear h
  rw [mapM_eq_ok]
  induction activeContracts with
  | nil => exact .nil
  | cons response rest ih =>
      rw [List.forall_mem_cons] at hvalid
      obtain ⟨⟨entry, hok, _⟩, hrest⟩ := hvalid
      rw [activeEntries, List.filterMap_cons_some (activeContractEntry_ok hok).1]
      exact .cons hok (ih hrest)

theorem ActiveValid.mem_entries (h : ActiveValid locale activeContracts) {entry : ActiveContractEntry}
    (hentry : entry ∈ activeEntries activeContracts) : EntryEncodes entry ∧
      ∃ creation, creationDescriptor locale entry.event entry.event.offset = .ok creation := by
  obtain ⟨response, hresponse, hmapped⟩ := List.mem_filterMap.mp hentry
  obtain ⟨found, hok, hencodes⟩ := h.entry_valid response hresponse
  obtain ⟨hfound, hcreation⟩ := activeContractEntry_ok hok
  obtain rfl := Option.some.inj (hfound.symm.trans hmapped)
  exact ⟨hencodes, hcreation⟩

/-- A snapshot is accepted exactly when it is valid. -/
theorem mapActiveContracts_succeeds :
    (∃ fragment, mapGrpcQueryRelationFragment locale [] activeContracts = .ok fragment) ↔
      ActiveValid locale activeContracts := by
  constructor
  · intro h
    obtain ⟨fragment, hfragment⟩ := h
    obtain ⟨run⟩ := mapGrpcQueryRelationFragment_ok.mp hfragment
    exact run.active_valid
  · intro h
    obtain ⟨reconciled, hreconciled⟩ : ∃ reconciled, reconcileActiveContracts locale .empty
        (activeEntries activeContracts) = .ok reconciled :=
      reconcileActiveContracts_succeeds .empty h.reconciles
    obtain ⟨typeRows, htypes⟩ : ∃ typeRows, ((activeEntries activeContracts).map fun entry =>
        LedgerEvent.created entry.event).mapM typeIdentityRows = .ok typeRows := by
      apply mapM_succeeds
      intro event hevent
      obtain ⟨entry, hentry, rfl⟩ := List.mem_map.mp hevent
      exact (h.mem_entries hentry).1.typed
    obtain ⟨packageIds, hpackages⟩ : ∃ packageIds, ((activeEntries activeContracts).map fun entry =>
        LedgerEvent.created entry.event).mapM packageIdsFor = .ok packageIds := by
      apply mapM_succeeds
      intro event hevent
      obtain ⟨entry, hentry, rfl⟩ := List.mem_map.mp hevent
      obtain ⟨ids, hids, _⟩ := (h.mem_entries hentry).1.packaged
      exact ⟨ids, hids⟩
    obtain ⟨packageIdentities, hsorted⟩ :
        ∃ rows, sortedPackageIdentities packageIds.flatten = .ok rows := by
      rw [sortedPackageIdentities_ok]
      intro id hid
      obtain ⟨ids, hids, hid⟩ := List.mem_flatten.mp hid
      obtain ⟨event, hevent, hok⟩ := exists_left_of_mem (mapM_eq_ok.mp hpackages) hids
      obtain ⟨entry, hentry, rfl⟩ := List.mem_map.mp hevent
      obtain ⟨found, hfound, hencoded⟩ := (h.mem_entries hentry).1.packaged
      rw [hok] at hfound
      obtain rfl := Except.ok.inj hfound
      exact hencoded id hid
    have hinput : readInput locale [] activeContracts
        = .ok ⟨[], activeEntries activeContracts, []⟩ := by
      refine readInput_ok.mpr ⟨?_, rfl, rfl⟩
      exact {
        transactions_valid := fun _ hmem => absurd hmem List.not_mem_nil
        offsets_nodup := List.nodup_nil
        identities_nodup := List.nodup_nil
        entries_mapped := h.entries_mapped
        activations_nodup := h.keys_nodup
        keys_encode := by
          rw [keyRegistry, checkAll_eq_ok]
          intro event hevent
          obtain ⟨entry, hentry, rfl⟩ := List.mem_map.mp hevent
          have hregistered := (h.mem_entries hentry).1.registered
          rw [keyRegistry, checkAll_eq_ok] at hregistered
          exact hregistered _ (List.mem_singleton.mpr rfl) }
    exact ⟨_, bind_eq_ok.mpr ⟨_, hinput, bind_eq_ok.mpr ⟨[], rfl, bind_eq_ok.mpr ⟨[], rfl,
      bind_eq_ok.mpr ⟨.empty, rfl, bind_eq_ok.mpr ⟨reconciled, hreconciled,
        bind_eq_ok.mpr ⟨typeRows, htypes, bind_eq_ok.mpr ⟨packageIds, hpackages,
          bind_eq_ok.mpr ⟨packageIdentities, hsorted, rfl⟩⟩⟩⟩⟩⟩⟩⟩⟩

end Accepted

/-! ### The rows of a snapshot -/

/-- The row and the creation that a snapshot holds for a contract. -/
def reconciledActive (locale : Collation) (activeContracts : List GetActiveContractsResponse)
    (id : String) : Option (ContractRow × GrpcQueryCreationIdentity) :=
  if activations (activeEntries activeContracts) id = [] then none
  else (reconcileContract locale id none none
    (activations (activeEntries activeContracts) id)).toOption

section Rows

variable {activeContracts : List GetActiveContractsResponse} {fragment : GrpcQueryRelationFragment}
  {id : String} {row : ContractRow} {creation : GrpcQueryCreationIdentity}

theorem reconciledActive_ids (h : reconciledActive locale activeContracts id = some (row, creation)) :
    row.contractId = id ∧ creation.contractId = id := by
  rw [reconciledActive] at h
  split at h
  · cases h
  · rw [toOption_eq_some_iff] at h
    refine reconcileContract_ids ?_ ?_ (fun entry hentry => (mem_activations.mp hentry).2) h
    · exact fun _ hnone => by cases hnone
    · exact fun _ hnone => by cases hnone

theorem MapperRun.active_get (run : MapperRun locale [] activeContracts fragment) (id : String) :
    run.reconciled.contracts.get id = (reconciledActive locale activeContracts id).map Prod.fst ∧
      run.reconciled.creations.get id = (reconciledActive locale activeContracts id).map Prod.snd := by
  have hspec := run.reconciled_spec
  rw [run.history_empty, run.activeEntries_eq] at hspec
  rw [reconciledActive]
  split
  · rename_i hnone
    exact hspec.untouched id hnone
  · rename_i hne
    obtain ⟨row, creation, hresult, hrow, hcreation⟩ := hspec.reconciled id hne
    change reconcileContract locale id none none _ = _ at hresult
    rw [hresult]
    exact ⟨hrow, hcreation⟩

theorem MapperRun.mem_active_contracts (run : MapperRun locale [] activeContracts fragment) :
    row ∈ fragment.contracts ↔
      ∃ creation, reconciledActive locale activeContracts row.contractId = some (row, creation) := by
  rw [run.mem_contracts, (run.active_get _).1, Option.map_eq_some_iff]
  constructor
  · intro h
    obtain ⟨⟨found, creation⟩, hpair, rfl⟩ := h
    exact ⟨creation, hpair⟩
  · intro h
    obtain ⟨creation, hpair⟩ := h
    exact ⟨_, hpair, rfl⟩

theorem MapperRun.mem_active_creations (run : MapperRun locale [] activeContracts fragment) :
    creation ∈ fragment.creationIdentities ↔
      ∃ row, reconciledActive locale activeContracts creation.contractId = some (row, creation) := by
  rw [run.creations_eq, mem_sortBy, KeyedMap.mem_values]
  constructor
  · intro h
    obtain ⟨id, hid⟩ := h
    rw [(run.active_get id).2, Option.map_eq_some_iff] at hid
    obtain ⟨⟨row, found⟩, hpair, rfl⟩ := hid
    rw [(reconciledActive_ids hpair).2]
    exact ⟨row, hpair⟩
  · intro h
    obtain ⟨row, hpair⟩ := h
    refine ⟨creation.contractId, ?_⟩
    rw [(run.active_get _).2, hpair]
    rfl

/-- The ids of the rows are those of the contracts in the snapshot. -/
theorem MapperRun.active_ids (run : MapperRun locale [] activeContracts fragment) :
    id ∈ fragment.contracts.map ContractRow.contractId ↔
      activations (activeEntries activeContracts) id ≠ [] := by
  rw [run.contract_ids.mem_iff, KeyedMap.mem_keys, (run.active_get id).1, reconciledActive]
  by_cases hnone : activations (activeEntries activeContracts) id = []
  · simp [hnone]
  · obtain ⟨pair, hpair⟩ := run.active_valid.reconciles id hnone
    simp [hnone, hpair, Except.toOption]

theorem MapperRun.plain_contracts (run : MapperRun locale [] activeContracts fragment) :
    ∀ row ∈ fragment.contracts, isPlain row.contractId = true := by
  intro row hrow
  rw [run.mem_contracts] at hrow
  exact (run.reconciled_spec.keyed.contract_key hrow).2

theorem MapperRun.plain_creations (run : MapperRun locale [] activeContracts fragment) :
    ∀ creation ∈ fragment.creationIdentities, isPlain creation.contractId = true := by
  intro creation hcreation
  obtain ⟨row, hpair⟩ := run.mem_active_creations.mp hcreation
  obtain ⟨hrow, _⟩ := reconciledActive_ids hpair
  rw [← hrow]
  refine run.plain_contracts row (run.mem_active_contracts.mpr ⟨creation, ?_⟩)
  rw [hrow, hpair]

end Rows

/-! ### Snapshots that agree on their contracts -/

/-- What two activations of one contract have in common: it was created once. -/
structure SameCreate (event other : CreatedEvent) : Prop where
  templateId_eq : event.templateId = other.templateId
  packageName_eq : event.packageName = other.packageName
  representative_eq : event.representativePackageId = other.representativePackageId
  arguments_eq : event.createArguments = other.createArguments
  createdAt_eq : event.createdAt = other.createdAt

def ActivationsAgree (activeContracts : List GetActiveContractsResponse) : Prop :=
  ∀ a ∈ activeEntries activeContracts, ∀ b ∈ activeEntries activeContracts,
    a.event.contractId = b.event.contractId → SameCreate a.event b.event

/-- Everything in a creation but its witnesses comes from what activations have in common. -/
theorem creationDescriptor_common {event other : CreatedEvent} {offset : String}
    {creation creation' : GrpcQueryCreationIdentity} (hid : event.contractId = other.contractId)
    (hsame : SameCreate event other) (h : creationDescriptor locale event offset = .ok creation)
    (h' : creationDescriptor locale other offset = .ok creation') (witnesses : List String) :
    { creation with witnesses } = { creation' with witnesses } := by
  have hfields : ∀ {event : CreatedEvent} {creation : GrpcQueryCreationIdentity},
      creationDescriptor locale event offset = .ok creation → ∃ template payload createdAt,
        event.templateId = some template ∧
        (event.createArguments.mapM fun fields => mapGrpcQueryValue locale (.record fields))
          = .ok (some payload) ∧
        requiredTimestamp event.createdAt "created event time" = .ok createdAt ∧
        { creation with witnesses } = { creation with
          contractId := event.contractId
          offset := offset
          templateId := template
          creationPackageId := template.packageId
          representativePackageId := nullableString event.representativePackageId
          packageName := event.packageName
          payload := payload
          witnesses := witnesses
          createdAt := createdAt } := by
    intro event creation h
    unfold creationDescriptor at h
    obtain ⟨_, _, h⟩ := bind_eq_ok.mp h
    obtain ⟨_, _, h⟩ := bind_eq_ok.mp h
    obtain ⟨_, _, h⟩ := bind_eq_ok.mp h
    obtain ⟨_, _, h⟩ := bind_eq_ok.mp h
    obtain ⟨_, _, h⟩ := bind_eq_ok.mp h
    obtain ⟨template, htemplate, h⟩ := bind_eq_ok.mp h
    cases harguments : event.createArguments with
    | none =>
        rw [harguments] at h
        cases h
    | some createArguments =>
        simp only [harguments] at h
        obtain ⟨createdAt, hcreatedAt, h⟩ := bind_eq_ok.mp h
        obtain ⟨_, _, h⟩ := bind_eq_ok.mp h
        obtain ⟨_, _, h⟩ := bind_eq_ok.mp h
        obtain ⟨payload, hpayload, h⟩ := bind_eq_ok.mp h
        obtain ⟨_, _, h⟩ := bind_eq_ok.mp h
        obtain rfl := Except.ok.inj h
        refine ⟨template, payload, createdAt, requiredTemplate_ok htemplate, ?_, hcreatedAt, rfl⟩
        rw [Option.mapM_some, hpayload]
        rfl
  obtain ⟨template, payload, createdAt, htemplate, hpayload, hcreatedAt, heq⟩ := hfields h
  obtain ⟨template', payload', createdAt', htemplate', hpayload', hcreatedAt', heq'⟩ := hfields h'
  rw [hsame.templateId_eq, htemplate'] at htemplate
  obtain rfl := Option.some.inj htemplate
  rw [hsame.arguments_eq, hpayload'] at hpayload
  obtain rfl := Option.some.inj (Except.ok.inj hpayload)
  rw [hsame.createdAt_eq, hcreatedAt'] at hcreatedAt
  obtain rfl := Except.ok.inj hcreatedAt
  rw [heq, heq', hid, hsame.representative_eq, hsame.packageName_eq]

/-- The first of a sorted group comes before every member of it. -/
theorem first_isLE {group : List ActiveContractEntry} {first : ActiveContractEntry}
    {rest : List ActiveContractEntry} (h : sortBy (compareActivation locale) group = first :: rest)
    {entry : ActiveContractEntry} (hentry : entry ∈ group) :
    (compareActivation locale first entry).isLE := by
  have hsorted := pairwise_sortBy (compareActivation locale) group
  have hmem : entry ∈ sortBy (compareActivation locale) group := mem_sortBy.mpr hentry
  rw [h] at hsorted hmem
  rcases List.mem_cons.mp hmem with heq | hmem
  · have hrefl : compareActivation locale first first = .eq := Std.ReflCmp.compare_self
    rw [heq, hrefl]
    rfl
  · exact (List.pairwise_cons.mp hsorted).1 entry hmem

/-- Activations that agree can come in any order, tied or not. -/
theorem reconcileContract_agree {id : String} {group other : List ActiveContractEntry}
    (hperm : group.Perm other) (hid : ∀ entry ∈ group, entry.event.contractId = id)
    (hagree : ∀ a ∈ group, ∀ b ∈ group, SameCreate a.event b.event)
    {pair : ContractRow × GrpcQueryCreationIdentity}
    (h : reconcileContract locale id none none group = .ok pair) :
    reconcileContract locale id none none other = .ok pair := by
  obtain ⟨descriptors, hdescriptors, h⟩ := bind_eq_ok.mp h
  obtain ⟨witnesses, hwitnesses, h⟩ := bind_eq_ok.mp h
  obtain ⟨reordered, hreordered, hsame⟩ := mapM_perm hperm hdescriptors
  refine bind_eq_ok.mpr ⟨reordered, hreordered, bind_eq_ok.mpr ⟨witnesses,
    reconcileWitnesses_perm hsame hwitnesses, ?_⟩⟩
  cases hsorted : sortBy (compareActivation locale) group with
  | nil => simp [reconciledPair, hsorted] at h
  | cons first rest =>
      have hfirst : first ∈ group := mem_sortBy.mp (hsorted ▸ List.mem_cons_self)
      obtain ⟨first', rest', hsorted', _⟩ := first_of_group locale
        (fun hnil => absurd ((hnil ▸ hperm).eq_nil ▸ hfirst) List.not_mem_nil)
        (fun entry hentry => hid entry (hperm.mem_iff.mpr hentry))
      have hfirst' : first' ∈ group :=
        hperm.mem_iff.mpr (mem_sortBy.mp (hsorted' ▸ List.mem_cons_self))
      simp only [reconciledPair, hsorted, hsorted'] at h ⊢
      obtain ⟨created, hcreated, h⟩ := bind_eq_ok.mp h
      obtain rfl := Except.ok.inj h
      obtain ⟨created', _, hcreated'⟩ := exists_right_of_mem (mapM_eq_ok.mp hdescriptors) hfirst'
      refine bind_eq_ok.mpr ⟨created', hcreated', ?_⟩
      -- Either comes before the other, so they were activated at one offset.
      have htie := eq_of_isLE_of_isLE (first_isLE hsorted hfirst')
        (first_isLE hsorted' (hperm.mem_iff.mp hfirst))
      have hoffset : first.event.offset = first'.event.offset :=
        decimalValue_injective (creationDescriptor_ok hcreated).2.2.2.2.2
          (creationDescriptor_ok hcreated').2.2.2.2.2
          (Std.LawfulEqOrd.eq_of_compare (compareLex_eq_eq.mp (compareLex_eq_eq.mp htie).1).2)
      rw [← hoffset] at hcreated'
      have hcommon := creationDescriptor_common ((hid first hfirst).trans (hid first' hfirst').symm)
        (hagree first hfirst first' hfirst') hcreated hcreated' witnesses
      have hrows : ∀ creation : GrpcQueryCreationIdentity, ({ createdRow creation with witnesses } :
          ContractRow) = createdRow { creation with witnesses } := fun _ => rfl
      rw [hrows, hrows, hcommon]
      rfl

/-- A snapshot holds for a contract what its activations say, in whatever order. -/
theorem reconciledActive_perm {activeContracts others : List GetActiveContractsResponse}
    (hagree : ActivationsAgree activeContracts) {id : String}
    (hperm : (activations (activeEntries activeContracts) id).Perm
      (activations (activeEntries others) id)) :
    reconciledActive locale activeContracts id = reconciledActive locale others id := by
  have hid : ∀ entry ∈ activations (activeEntries activeContracts) id, entry.event.contractId = id :=
    fun entry hentry => (mem_activations.mp hentry).2
  have hsame : ∀ a ∈ activations (activeEntries activeContracts) id,
      ∀ b ∈ activations (activeEntries activeContracts) id, SameCreate a.event b.event := by
    intro a ha b hb
    exact hagree a (mem_activations.mp ha).1 b (mem_activations.mp hb).1 ((hid a ha).trans (hid b hb).symm)
  have hempty : activations (activeEntries activeContracts) id = [] ↔
      activations (activeEntries others) id = [] :=
    ⟨fun h => (h ▸ hperm).nil_eq.symm, fun h => (h ▸ hperm).eq_nil⟩
  rw [reconciledActive, reconciledActive]
  split
  · rename_i hnone
    rw [if_pos (hempty.mp hnone)]
  · rename_i hne
    rw [if_neg (fun h => hne (hempty.mpr h))]
    apply Option.ext
    intro pair
    rw [toOption_eq_some_iff, toOption_eq_some_iff]
    constructor
    · exact reconcileContract_agree hperm hid hsame
    · apply reconcileContract_agree hperm.symm (fun entry hentry => hid entry (hperm.mem_iff.mpr hentry))
      exact fun a ha b hb => hsame a (hperm.mem_iff.mpr ha) b (hperm.mem_iff.mpr hb)

end CantonSdk.Query.Grpc
