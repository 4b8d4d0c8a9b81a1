import CantonSdk.Query.Grpc.MapperStages

/-!
# Laying the active-contract set over a history

The activations of one contract are reconciled with what the history says about that contract and with
nothing else. So the loop over the groups is described contract by contract, and the order of the
groups does not matter.
-/

set_option linter.all false

namespace CantonSdk.Query.Grpc

open CantonSdk.Base CantonSdk.Query.Canonical

variable {locale : Collation}

/-- The row and creation a contract ends up with, given its witnesses: its own, or those of its first
activation. -/
def reconciledPair (locale : Collation) (existing : Option ContractRow)
    (historical : Option GrpcQueryCreationIdentity) (group : List ActiveContractEntry)
    (witnesses : List String) : Checked (ContractRow × GrpcQueryCreationIdentity) :=
  match existing, historical, sortBy (compareActivation locale) group with
  | some row, some creation, _ => .ok ({ row with witnesses }, { creation with witnesses })
  | _, _, representative :: _ => do
      let creation ← creationDescriptor locale representative.event representative.event.offset
      return ({ createdRow creation with witnesses }, { creation with witnesses })
  | _, _, [] => .error (.plain "a group of activations is never empty")

/-- What the activations of one contract make of its row and its creation. -/
def reconcileContract (locale : Collation) (contractId : String) (existing : Option ContractRow)
    (historical : Option GrpcQueryCreationIdentity) (group : List ActiveContractEntry) :
    Checked (ContractRow × GrpcQueryCreationIdentity) := do
  let descriptors ← group.mapM fun entry => creationDescriptor locale entry.event entry.event.offset
  let witnesses ← reconcileWitnesses contractId existing historical descriptors
  reconciledPair locale existing historical group witnesses

section Pair

variable {existing : Option ContractRow} {historical : Option GrpcQueryCreationIdentity}
  {group : List ActiveContractEntry} {witnesses : List String} {row : ContractRow}
  {creation : GrpcQueryCreationIdentity}

theorem reconciledPair_cases
    (h : reconciledPair locale existing historical group witnesses = .ok (row, creation)) :
    (∃ before beforeCreation, existing = some before ∧ historical = some beforeCreation ∧
      row = { before with witnesses } ∧ creation = { beforeCreation with witnesses }) ∨
    ((existing = none ∨ historical = none) ∧ ∃ representative ∈ group, ∃ created,
      creationDescriptor locale representative.event representative.event.offset = .ok created ∧
      row = { createdRow created with witnesses } ∧ creation = { created with witnesses }) := by
  have hfirst : (existing = none ∨ historical = none) →
      reconciledPair locale existing historical group witnesses =
        (match sortBy (compareActivation locale) group with
          | representative :: _ => do
              let creation ← creationDescriptor locale representative.event representative.event.offset
              return ({ createdRow creation with witnesses }, { creation with witnesses })
          | [] => .error (.plain "a group of activations is never empty")) := by
    intro hnone
    unfold reconciledPair
    rcases hnone with rfl | rfl
    · cases sortBy (compareActivation locale) group <;> rfl
    · cases existing <;> cases sortBy (compareActivation locale) group <;> rfl
  by_cases hnone : existing = none ∨ historical = none
  · rw [hfirst hnone] at h
    refine Or.inr ⟨hnone, ?_⟩
    cases hsorted : sortBy (compareActivation locale) group with
    | nil => simp [hsorted] at h
    | cons representative rest =>
        simp only [hsorted] at h
        obtain ⟨created, hcreated, h⟩ := bind_eq_ok.mp h
        obtain ⟨rfl, rfl⟩ := Prod.mk.inj (Except.ok.inj h)
        refine ⟨representative, ?_, created, hcreated, rfl, rfl⟩
        apply mem_sortBy.mp
        rw [hsorted]
        exact List.mem_cons_self
  · rw [not_or] at hnone
    obtain ⟨before, rfl⟩ := Option.ne_none_iff_exists'.mp hnone.1
    obtain ⟨beforeCreation, rfl⟩ := Option.ne_none_iff_exists'.mp hnone.2
    obtain ⟨rfl, rfl⟩ := Prod.mk.inj (Except.ok.inj h)
    exact Or.inl ⟨before, beforeCreation, rfl, rfl, rfl, rfl⟩

/-- The rows a contract ends up with stand under its id. -/
theorem reconcileContract_ids {contractId : String}
    (hexisting : ∀ before ∈ existing, before.contractId = contractId)
    (hhistorical : ∀ before ∈ historical, before.contractId = contractId)
    (hgroup : ∀ entry ∈ group, entry.event.contractId = contractId)
    (h : reconcileContract locale contractId existing historical group = .ok (row, creation)) :
    row.contractId = contractId ∧ creation.contractId = contractId := by
  obtain ⟨_, _, h⟩ := bind_eq_ok.mp h
  obtain ⟨witnesses, _, h⟩ := bind_eq_ok.mp h
  rcases reconciledPair_cases h with ⟨before, beforeCreation, hbefore, hcreation, rfl, rfl⟩ |
    ⟨_, representative, hmem, created, hcreated, rfl, rfl⟩
  · exact ⟨hexisting before hbefore, hhistorical beforeCreation hcreation⟩
  · have hid := (creationDescriptor_ok hcreated).1.trans (hgroup representative hmem)
    exact ⟨hid, hid⟩

end Pair

theorem plain_of_group {contractId : String} {group : List ActiveContractEntry}
    {descriptors : List GrpcQueryCreationIdentity} (hne : group ≠ [])
    (hgroup : ∀ entry ∈ group, entry.event.contractId = contractId)
    (h : group.mapM (fun entry => creationDescriptor locale entry.event entry.event.offset)
      = .ok descriptors) : isPlain contractId = true := by
  cases group with
  | nil => exact absurd rfl hne
  | cons entry rest =>
      rw [mapM_eq_ok] at h
      cases h with
      | cons hfirst _ =>
          rw [← hgroup entry List.mem_cons_self]
          exact (creationDescriptor_ok hfirst).2.2.2.2.1

theorem first_of_group (locale : Collation) {contractId : String} {group : List ActiveContractEntry} (hne : group ≠ [])
    (hgroup : ∀ entry ∈ group, entry.event.contractId = contractId) :
    ∃ representative rest, sortBy (compareActivation locale) group = representative :: rest ∧
      representative.event.contractId = contractId := by
  cases horder : sortBy (compareActivation locale) group with
  | nil =>
      have hlength := (perm_sortBy (compareActivation locale) group).length_eq
      rw [horder] at hlength
      exact absurd (List.length_eq_zero_iff.mp hlength.symm) hne
  | cons representative rest =>
      refine ⟨representative, rest, rfl, hgroup representative ?_⟩
      apply mem_sortBy.mp
      rw [horder]
      exact List.mem_cons_self

/-- What the last two statements of the loop body set, given the witnesses. -/
theorem addRepresentative_ok {s t : MapperState} (hs : s.Keyed) {contractId : String}
    {group : List ActiveContractEntry} (hne : group ≠ [])
    (hgroup : ∀ entry ∈ group, entry.event.contractId = contractId) (witnesses : List String) :
    (∃ added, addRepresentative locale s contractId group = .ok added ∧
      setWitnesses added contractId witnesses = t) ↔
    ∃ row creation,
      reconciledPair locale (s.contracts.get contractId) (s.creations.get contractId) group witnesses
        = .ok (row, creation) ∧
      t = { s with
        contracts := s.contracts.set contractId row
        creations := s.creations.set contractId creation } := by
  obtain ⟨representative, rest, hsorted, hid⟩ := first_of_group locale hne hgroup
  cases hrow : s.contracts.get contractId with
  | some row =>
      obtain ⟨creation, hcreation⟩ := (hs.same_keys contractId).mp ⟨row, hrow⟩
      simp only [addRepresentative, reconciledPair, hrow, hcreation]
      constructor
      · intro h
        obtain ⟨_, hsame, rfl⟩ := h
        obtain rfl := Except.ok.inj hsame
        refine ⟨_, _, rfl, ?_⟩
        simp only [setWitnesses, hrow, hcreation]
      · intro h
        obtain ⟨_, _, hresult, rfl⟩ := h
        obtain ⟨rfl, rfl⟩ := Prod.mk.inj (Except.ok.inj hresult)
        refine ⟨s, rfl, ?_⟩
        simp only [setWitnesses, hrow, hcreation]
  | none =>
      have hfresh : s.contracts.has representative.event.contractId = false := by
        rw [hid, ← Bool.not_eq_true, KeyedMap.has_iff, hrow]
        simp
      have hguard : ∀ error : QueryError,
          guardThat (!s.contracts.has representative.event.contractId) error = .ok () := by
        intro error
        rw [guardThat_eq_ok, hfresh]
        rfl
      simp only [addRepresentative, reconciledPair, hrow, hsorted, addCreatedContract, hguard]
      constructor
      · intro h
        obtain ⟨_, hadded, rfl⟩ := h
        obtain ⟨creation, hcreation, hadded⟩ := bind_eq_ok.mp hadded
        obtain rfl := Except.ok.inj hadded
        refine ⟨_, _, bind_eq_ok.mpr ⟨creation, hcreation, rfl⟩, ?_⟩
        simp only [setWitnesses, hid, KeyedMap.get_set_self, KeyedMap.set_set]
      · intro h
        obtain ⟨_, _, hresult, rfl⟩ := h
        obtain ⟨creation, hcreation, hresult⟩ := bind_eq_ok.mp hresult
        obtain ⟨rfl, rfl⟩ := Prod.mk.inj (Except.ok.inj hresult)
        refine ⟨_, bind_eq_ok.mpr ⟨creation, hcreation, rfl⟩, ?_⟩
        simp only [setWitnesses, hid, KeyedMap.get_set_self, KeyedMap.set_set]

/-- One turn of the loop sets the reconciled row and creation of one contract. -/
theorem reconcileGroup_ok {s t : MapperState} (hs : s.Keyed) {contractId : String}
    {group : List ActiveContractEntry} (hne : group ≠ [])
    (hgroup : ∀ entry ∈ group, entry.event.contractId = contractId) :
    reconcileGroup locale s contractId group = .ok t ↔
      ∃ row creation,
        reconcileContract locale contractId (s.contracts.get contractId) (s.creations.get contractId)
          group = .ok (row, creation) ∧
        t = { s with
          contracts := s.contracts.set contractId row
          creations := s.creations.set contractId creation } := by
  rw [reconcileGroup, bind_eq_ok]
  constructor
  · intro h
    obtain ⟨descriptors, hdescriptors, h⟩ := h
    obtain ⟨witnesses, hwitnesses, h⟩ := bind_eq_ok.mp h
    obtain ⟨added, hadded, h⟩ := bind_eq_ok.mp h
    obtain ⟨row, creation, hresult, ht⟩ :=
      (addRepresentative_ok hs hne hgroup witnesses).mp ⟨added, hadded, Except.ok.inj h⟩
    refine ⟨row, creation, ?_, ht⟩
    exact bind_eq_ok.mpr ⟨descriptors, hdescriptors, bind_eq_ok.mpr ⟨witnesses, hwitnesses, hresult⟩⟩
  · intro h
    obtain ⟨row, creation, h, ht⟩ := h
    obtain ⟨descriptors, hdescriptors, h⟩ := bind_eq_ok.mp h
    obtain ⟨witnesses, hwitnesses, hresult⟩ := bind_eq_ok.mp h
    obtain ⟨added, hadded, hset⟩ :=
      (addRepresentative_ok hs hne hgroup witnesses).mpr ⟨row, creation, hresult, ht⟩
    exact ⟨descriptors, hdescriptors, bind_eq_ok.mpr ⟨witnesses, hwitnesses,
      bind_eq_ok.mpr ⟨added, hadded, congrArg Except.ok hset⟩⟩⟩

/-! ### The loop over the groups -/

/-- The activations of one contract. -/
def activations (entries : List ActiveContractEntry) (contractId : String) : List ActiveContractEntry :=
  entries.filter fun entry => decide (entry.event.contractId = contractId)

theorem mem_activations {entries : List ActiveContractEntry} {contractId : String}
    {entry : ActiveContractEntry} :
    entry ∈ activations entries contractId ↔ entry ∈ entries ∧ entry.event.contractId = contractId := by
  simp [activations]

/-- Groups of activations, each under its own contract id. -/
structure Grouped (groups : List (String × List ActiveContractEntry)) : Prop where
  keys_nodup : (groups.map Prod.fst).Nodup
  group_ne : ∀ group ∈ groups, group.2 ≠ []
  group_key : ∀ group ∈ groups, ∀ entry ∈ group.2, entry.event.contractId = group.1

theorem Grouped.tail {group : String × List ActiveContractEntry}
    {groups : List (String × List ActiveContractEntry)} (h : Grouped (group :: groups)) :
    Grouped groups where
  keys_nodup := (List.nodup_cons.mp h.keys_nodup).2
  group_ne := fun other hother => h.group_ne other (List.mem_cons_of_mem _ hother)
  group_key := fun other hother => h.group_key other (List.mem_cons_of_mem _ hother)

theorem grouped_groupBy (entries : List ActiveContractEntry) :
    Grouped (KeyedMap.groupBy (fun entry => entry.event.contractId) entries).entries where
  keys_nodup := KeyedMap.keys_nodup _
  group_ne := fun _ hgroup => (KeyedMap.mem_groupBy hgroup).2
  group_key := by
    intro group hgroup entry hentry
    rw [(KeyedMap.mem_groupBy hgroup).1] at hentry
    simpa using (List.mem_filter.mp hentry).2

/-- How one state follows from another by reconciling some groups. -/
structure ReconciledBy (locale : Collation) (groups : List (String × List ActiveContractEntry))
    (s t : MapperState) : Prop where
  keyed : t.Keyed
  exercises_eq : t.exerciseRows = s.exerciseRows
  untouched : ∀ id ∉ groups.map Prod.fst,
    t.contracts.get id = s.contracts.get id ∧ t.creations.get id = s.creations.get id
  reconciled : ∀ group ∈ groups, ∃ row creation,
    reconcileContract locale group.1 (s.contracts.get group.1) (s.creations.get group.1) group.2
      = .ok (row, creation) ∧
    t.contracts.get group.1 = some row ∧ t.creations.get group.1 = some creation

/-- One turn leaves a keyed state, and every other contract as it was. -/
theorem reconcileGroup_spec {s t : MapperState} (hs : s.Keyed) {contractId : String}
    {group : List ActiveContractEntry} (hne : group ≠ [])
    (hgroup : ∀ entry ∈ group, entry.event.contractId = contractId)
    (h : reconcileGroup locale s contractId group = .ok t) :
    ReconciledBy locale [(contractId, group)] s t := by
  obtain ⟨row, creation, hresult, rfl⟩ := (reconcileGroup_ok hs hne hgroup).mp h
  obtain ⟨hrow, hcreation⟩ := reconcileContract_ids
    (fun before hbefore => (hs.contract_key hbefore).1)
    (fun before hbefore => hs.creation_key hbefore) hgroup hresult
  obtain ⟨descriptors, hdescriptors, _⟩ := bind_eq_ok.mp hresult
  refine ⟨hs.setBoth hrow hcreation (plain_of_group hne hgroup hdescriptors) _, rfl, ?_, ?_⟩
  · intro id hid
    have hne : id ≠ contractId := by simpa using hid
    exact ⟨KeyedMap.get_set_ne hne, KeyedMap.get_set_ne hne⟩
  · intro other hother
    obtain rfl := List.mem_singleton.mp hother
    exact ⟨row, creation, hresult, KeyedMap.get_set_self .., KeyedMap.get_set_self ..⟩

theorem reconcileGroups_spec {groups : List (String × List ActiveContractEntry)}
    (hgroups : Grouped groups) {s t : MapperState} (hs : s.Keyed)
    (h : groups.foldlM (fun s group => reconcileGroup locale s group.1 group.2) s = .ok t) :
    ReconciledBy locale groups s t := by
  induction groups generalizing s with
  | nil =>
      obtain rfl := Except.ok.inj h
      exact ⟨hs, rfl, fun _ _ => ⟨rfl, rfl⟩, fun _ hmem => absurd hmem List.not_mem_nil⟩
  | cons group rest ih =>
      rw [List.foldlM_cons] at h
      obtain ⟨middle, hmiddle, hrest⟩ := bind_eq_ok.mp h
      have hfirst := reconcileGroup_spec hs (hgroups.group_ne group List.mem_cons_self)
        (hgroups.group_key group List.mem_cons_self) hmiddle
      have hlater := ih hgroups.tail hfirst.keyed hrest
      have hfresh : group.1 ∉ rest.map Prod.fst := (List.nodup_cons.mp hgroups.keys_nodup).1
      refine ⟨hlater.keyed, hlater.exercises_eq.trans hfirst.exercises_eq, ?_, ?_⟩
      · intro id hid
        rw [List.map_cons, List.mem_cons, not_or] at hid
        obtain ⟨hcontracts, hcreations⟩ := hfirst.untouched id (by simpa using hid.1)
        obtain ⟨hcontracts', hcreations'⟩ := hlater.untouched id hid.2
        exact ⟨hcontracts'.trans hcontracts, hcreations'.trans hcreations⟩
      · intro other hother
        rcases List.mem_cons.mp hother with rfl | hother
        · obtain ⟨row, creation, hresult, hrow, hcreation⟩ :=
            hfirst.reconciled other (List.mem_singleton.mpr rfl)
          obtain ⟨hcontracts, hcreations⟩ := hlater.untouched other.1 hfresh
          exact ⟨row, creation, hresult, hcontracts.trans hrow, hcreations.trans hcreation⟩
        · have hne : other.1 ≠ group.1 := by
            intro heq
            exact hfresh (List.mem_map.mpr ⟨other, hother, heq⟩)
          obtain ⟨hcontracts, hcreations⟩ := hfirst.untouched other.1 (by simpa using hne)
          obtain ⟨row, creation, hresult, hrow, hcreation⟩ := hlater.reconciled other hother
          rw [hcontracts, hcreations] at hresult
          exact ⟨row, creation, hresult, hrow, hcreation⟩

/-- The loop succeeds when every group can be reconciled with the state before the loop. -/
theorem reconcileGroups_succeeds {groups : List (String × List ActiveContractEntry)}
    (hgroups : Grouped groups) {s : MapperState} (hs : s.Keyed)
    (h : ∀ group ∈ groups, ∃ pair, reconcileContract locale group.1 (s.contracts.get group.1)
      (s.creations.get group.1) group.2 = .ok pair) :
    ∃ t, groups.foldlM (fun s group => reconcileGroup locale s group.1 group.2) s = .ok t := by
  induction groups generalizing s with
  | nil => exact ⟨s, rfl⟩
  | cons group rest ih =>
      have hne := hgroups.group_ne group List.mem_cons_self
      have hkey := hgroups.group_key group List.mem_cons_self
      obtain ⟨⟨row, creation⟩, hresult⟩ := h group List.mem_cons_self
      obtain ⟨middle, hmiddle⟩ : ∃ middle, reconcileGroup locale s group.1 group.2 = .ok middle :=
        ⟨_, (reconcileGroup_ok hs hne hkey).mpr ⟨row, creation, hresult, rfl⟩⟩
      have hfirst := reconcileGroup_spec hs hne hkey hmiddle
      have hfresh : group.1 ∉ rest.map Prod.fst := (List.nodup_cons.mp hgroups.keys_nodup).1
      obtain ⟨t, ht⟩ := ih hgroups.tail hfirst.keyed (by
        intro other hother
        have hother_ne : other.1 ≠ group.1 := by
          intro heq
          exact hfresh (List.mem_map.mpr ⟨other, hother, heq⟩)
        obtain ⟨hcontracts, hcreations⟩ := hfirst.untouched other.1 (by simpa using hother_ne)
        rw [hcontracts, hcreations]
        exact h other (List.mem_cons_of_mem _ hother))
      exact ⟨t, by rw [List.foldlM_cons]; exact bind_eq_ok.mpr ⟨middle, hmiddle, ht⟩⟩

theorem mem_groups {entries : List ActiveContractEntry} {id : String} :
    id ∈ (KeyedMap.groupBy (fun entry => entry.event.contractId) entries).entries.map Prod.fst ↔
      activations entries id ≠ [] := by
  change id ∈ (KeyedMap.groupBy (fun entry => entry.event.contractId) entries).keys ↔ _
  rw [KeyedMap.mem_keys, KeyedMap.get_groupBy]
  change (∃ value, (if activations entries id = [] then none
    else some (activations entries id)) = some value) ↔ _
  by_cases hempty : activations entries id = []
  · simp [hempty]
  · simp [hempty]

/-- A contract without activations stays as it was; any other is reconciled with them. -/
structure Reconciled (locale : Collation) (entries : List ActiveContractEntry) (s t : MapperState) :
    Prop where
  keyed : t.Keyed
  exercises_eq : t.exerciseRows = s.exerciseRows
  untouched : ∀ id, activations entries id = [] →
    t.contracts.get id = s.contracts.get id ∧ t.creations.get id = s.creations.get id
  reconciled : ∀ id, activations entries id ≠ [] → ∃ row creation,
    reconcileContract locale id (s.contracts.get id) (s.creations.get id) (activations entries id)
      = .ok (row, creation) ∧
    t.contracts.get id = some row ∧ t.creations.get id = some creation

theorem reconcileActiveContracts_spec {entries : List ActiveContractEntry} {s t : MapperState}
    (hs : s.Keyed) (h : reconcileActiveContracts locale s entries = .ok t) :
    Reconciled locale entries s t := by
  have hspec := reconcileGroups_spec (grouped_groupBy entries) hs h
  refine ⟨hspec.keyed, hspec.exercises_eq, ?_, ?_⟩
  · intro id hempty
    exact hspec.untouched id (by rw [mem_groups]; exact not_not_intro hempty)
  · intro id hne
    obtain ⟨group, hgroup, rfl⟩ := List.mem_map.mp (mem_groups.mpr hne)
    have hactivations : group.2 = activations entries group.1 := (KeyedMap.mem_groupBy hgroup).1
    rw [← hactivations]
    exact hspec.reconciled group hgroup

theorem reconcileActiveContracts_succeeds {entries : List ActiveContractEntry} {s : MapperState}
    (hs : s.Keyed)
    (h : ∀ id, activations entries id ≠ [] → ∃ pair, reconcileContract locale id
      (s.contracts.get id) (s.creations.get id) (activations entries id) = .ok pair) :
    ∃ t, reconcileActiveContracts locale s entries = .ok t := by
  apply reconcileGroups_succeeds (grouped_groupBy entries) hs
  intro group hgroup
  have hactivations : group.2 = activations entries group.1 := (KeyedMap.mem_groupBy hgroup).1
  rw [hactivations]
  exact h group.1 (mem_groups.mp (List.mem_map.mpr ⟨group, hgroup, rfl⟩))

section Run

variable {source : List Transaction} {activeContracts : List GetActiveContractsResponse}
  {fragment : GrpcQueryRelationFragment}

theorem MapperRun.reconciled_spec (run : MapperRun locale source activeContracts fragment) :
    Reconciled locale run.input.activeEntries run.history run.reconciled :=
  reconcileActiveContracts_spec run.keyed run.active_reconciled

theorem MapperRun.mem_contracts (run : MapperRun locale source activeContracts fragment)
    {row : ContractRow} : row ∈ fragment.contracts ↔
      run.reconciled.contracts.get row.contractId = some row := by
  rw [run.contracts_eq, mem_sortBy, KeyedMap.mem_values]
  constructor
  · intro h
    obtain ⟨id, hid⟩ := h
    rwa [(run.reconciled_spec.keyed.contract_key hid).1]
  · exact fun h => ⟨_, h⟩

theorem MapperRun.contract_ids (run : MapperRun locale source activeContracts fragment) :
    (fragment.contracts.map ContractRow.contractId).Perm run.reconciled.contracts.keys := by
  rw [run.contracts_eq, ← run.reconciled_spec.keyed.contracts_map]
  exact (perm_sortBy _ _).map _

theorem MapperRun.creation_ids (run : MapperRun locale source activeContracts fragment) :
    (fragment.creationIdentities.map GrpcQueryCreationIdentity.contractId).Perm
      run.reconciled.creations.keys := by
  rw [run.creations_eq, ← run.reconciled_spec.keyed.creations_map]
  exact (perm_sortBy _ _).map _

end Run

end CantonSdk.Query.Grpc
